import Repost.Findings

namespace Repost.Serialize
open GoText
set_option autoImplicit true

/-- What is added to a report: an issue, or another report that has grown by itself. -/
inductive Growth where
  | issue (i : Issue)
  | report (parts : List Growth)

mutual

def Growth.addTo (e : Issues) : Growth → Issues
  | .issue i => e.addIssue i
  | .report parts => e.merge (grow {} parts)

def grow (e : Issues) : List Growth → Issues
  | [] => e
  | part :: parts => grow (part.addTo e) parts

end

mutual

def Growth.added : Growth → List Issue
  | .issue i => [i]
  | .report parts => allAdded parts

def allAdded : List Growth → List Issue
  | [] => []
  | part :: parts => part.added ++ allAdded parts

end

structure Capped (e : Issues) : Prop where
  few : e.issues.length ≤ maxValidationIssues
  short : ∀ i ∈ e.issues, i.path.length ≤ maxValidationIssuePathBytes
  total : e.totalPathBytes = (e.issues.map fun i => i.path.length).sum
  bounded : e.totalPathBytes ≤ maxValidationPathBytes

namespace Capped

theorem empty : Capped {} := ⟨Nat.zero_le _, nofun, rfl, Nat.zero_le _⟩

variable {e : Issues}

theorem retain (h : Capped e) (i : Issue) : Capped (e.retain i) := by
  unfold Issues.retain
  split
  · exact h
  · rename_i hfew
    dsimp only
    split
    · exact h
    · rename_i hfit
      constructor
      · rw [List.length_append, List.length_singleton]
        omega
      · intro j hj
        rcases List.mem_append.mp hj with hj | hj
        · exact h.short j hj
        · rw [List.mem_singleton.mp hj]
          exact truncateValidationPath_length i.path
      · simp [h.total]
      · exact Nat.not_lt.mp hfit

theorem foldl_retain (h : Capped e) (issues : List Issue) :
    Capped (issues.foldl Issues.retain e) := by
  induction issues generalizing e with
  | nil => exact h
  | cons i issues ih => exact ih (h.retain i)

theorem counted (h : Capped e) (n : Nat) : Capped { e with issueCount := n } :=
  ⟨h.few, h.short, h.total, h.bounded⟩

theorem addIssue (h : Capped e) (i : Issue) : Capped (e.addIssue i) :=
  (h.counted _).retain i

theorem merge (h : Capped e) (other : Issues) : Capped (e.merge other) :=
  (h.counted _).foldl_retain other.issues

end Capped

mutual

theorem Growth.addTo_reports (h : Reports e issues) : ∀ part : Growth,
    Reports (part.addTo e) (issues ++ part.added)
  | .issue i => h.addIssue i
  | .report parts => h.merge (grow_reports .empty parts)

theorem grow_reports (h : Reports e issues) : ∀ parts : List Growth,
    Reports (grow e parts) (issues ++ allAdded parts)
  | [] => by
    rw [allAdded, List.append_nil]
    exact h
  | part :: parts => by
    have hpart := Growth.addTo_reports h part
    have hrest := grow_reports hpart parts
    rwa [List.append_assoc] at hrest

end

theorem grow_capped (h : Capped e) (parts : List Growth) : Capped (grow e parts) := by
  induction parts generalizing e with
  | nil => exact h
  | cons part parts ih =>
    apply ih
    cases part with
    | issue i => exact h.addIssue i
    | report inner => exact h.merge _

/-- The sum and the difference of the saturating count, as 32-bit integers compute them. -/
def saturatingInt32 (current increment : Int) : Int :=
  if increment ≤ 0 then current
  else if Int.bmod (maxInt32 - increment) (2 ^ 32) ≤ current then maxInt32
  else Int.bmod (current + increment) (2 ^ 32)

theorem saturating_no_overflow (hc : current ≤ maxInt32) (hi : increment ≤ maxInt32) :
    saturatingInt32 current increment = saturatingValidationIssueCount current increment := by
  unfold maxInt32 at hc hi
  have hsub : Int.bmod ((maxInt32 : Int) - increment) (2 ^ 32) = maxInt32 - increment := by
    unfold maxInt32
    apply Int.bmod_eq_of_le <;> omega
  unfold saturatingInt32 saturatingValidationIssueCount
  rw [hsub]
  unfold maxInt32
  by_cases hzero : increment = 0
  · subst hzero
    simp
  · rw [if_neg (by omega), if_neg hzero]
    split
    · rw [if_pos (by omega)]
    · rw [if_neg (by omega), Int.bmod_eq_of_le (by omega) (by omega)]
      rfl

/-- Whatever is added in whatever nesting: a report keeps to its caps, keeps issues in the order in
which they came, counts all of them up to the greatest 32-bit integer, and says that it is truncated
exactly if it has not kept them all. -/
theorem issue_reports_capped (parts : List Growth) (operationID key : Bytes) :
    (grow {} parts).issues.length ≤ 32 ∧
      (∀ i ∈ (grow {} parts).issues, i.path.length ≤ 1024) ∧
      (grow {} parts).totalPathBytes = ((grow {} parts).issues.map fun i => i.path.length).sum ∧
      (grow {} parts).totalPathBytes ≤ 16384 ∧
      (grow {} parts).issues.Sublist ((allAdded parts).map Issue.cut) ∧
      (grow {} parts).issueCount = min (allAdded parts).length (2 ^ 31 - 1) ∧
      (∀ current increment : Nat, current ≤ 2 ^ 31 - 1 → increment ≤ 2 ^ 31 - 1 →
        saturatingInt32 current increment = saturatingValidationIssueCount current increment) ∧
      ((serializerOperationError (.issues (grow {} parts)) operationID key).issuesTruncated = true ↔
        (grow {} parts).issues.length < (allAdded parts).length) := by
  have hcaps := grow_capped .empty parts
  have hreports := grow_reports .empty parts
  rw [List.nil_append] at hreports
  have hcount : (grow {} parts).issueCount = min (allAdded parts).length (2 ^ 31 - 1) := hreports.count
  have hfew : (grow {} parts).issues.length ≤ 32 := hcaps.few
  have hle : (grow {} parts).issues.length ≤ (allAdded parts).length := by
    have hsub := hreports.kept.length_le
    rwa [List.length_map] at hsub
  refine ⟨hfew, hcaps.short, hcaps.total, hcaps.bounded, hreports.kept, hcount, ?_, ?_⟩
  · intro current increment hc hi
    exact saturating_no_overflow hc hi
  · have htruncated : (serializerOperationError (.issues (grow {} parts)) operationID key).issuesTruncated =
        ((grow {} parts).issueCount != (grow {} parts).issues.length) := by
      simp [serializerOperationError, SerializerError.report]
    rw [htruncated, bne_iff_ne, hcount]
    omega

end Repost.Serialize
