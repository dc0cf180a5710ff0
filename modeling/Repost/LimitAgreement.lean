import Repost.OrderedJson

namespace Repost.Ordered
open GoText Serialize
set_option autoImplicit true

mutual

def Tree.whole : Tree β → Bool
  | .nilObject | .nilList => false
  | .object members => membersWhole members
  | .list items => itemsWhole items
  | .string _ | .value _ => true

def membersWhole : List (Bytes × Tree β) → Bool
  | [] => true
  | (_, value) :: rest => value.whole && membersWhole rest

def itemsWhole : List (Tree β) → Bool
  | [] => true
  | item :: rest => item.whole && itemsWhole rest

end

structure Follows (reach : Reach) (whole : Bool) (text : Bytes) : Prop where
  short : reach.1.length ≤ text.length
  same : whole = true → reach = (text, none)
  less : whole = false → reach.2 = none → reach.1.length < text.length
  stop : ∀ stop, reach.2 = some stop → stop = .panicked

theorem Follows.verbatim (text : Bytes) : Follows (text, none) true text where
  short := Nat.le_refl _
  same _ := rfl
  less h := nomatch h
  stop _ h := nomatch h

theorem Follows.append (h : Follows a w p) (h' : Follows b w' q) :
    Follows (a.andThen b) (w && w') (p ++ q) := by
  obtain ⟨text, stop⟩ := a
  obtain ⟨hshort, hsame, hless, hstop⟩ := h
  obtain ⟨hshort', hsame', hless', hstop'⟩ := h'
  cases stop with
  | some stop =>
    have hw : w = false := by
      cases w with
      | false => rfl
      | true => cases hsame rfl
    constructor
    · rw [List.length_append]
      exact Nat.le_add_right_of_le hshort
    · intro h
      rw [hw] at h
      cases h
    · intro _ h
      cases h
    · exact hstop
  | none =>
    rw [Reach.andThen_none]
    constructor
    · simp only [List.length_append]
      exact Nat.add_le_add hshort hshort'
    · intro h
      rw [Bool.and_eq_true] at h
      have hp := congrArg Prod.fst (hsame h.1)
      simp only at hp
      rw [hsame' h.2, hp]
    · intro h hnone
      simp only [List.length_append]
      rcases Bool.and_eq_false_iff.mp h with hw | hw
      · exact Nat.add_lt_add_of_lt_of_le (hless hw rfl) hshort'
      · exact Nat.add_lt_add_of_le_of_lt hshort (hless' hw hnone)
    · exact hstop'

section
variable {encode : β → Option Bytes}

theorem Follows.bracketed (h : Follows reach w body) (opening closing : UInt8) :
    Follows (Reach.andThen ([opening], none) (reach.andThen ([closing], none))) w
      ([opening] ++ body ++ [closing]) := by
  have hb := (Follows.verbatim [opening]).append (h.append (Follows.verbatim [closing]))
  simpa using hb

mutual

theorem Tree.reach_follows : ∀ (t : Tree β) {text : Bytes}, t.text encode = some text →
    Follows (t.reach encode) t.whole text
  | .nilObject, _, h => by
    cases h
    have hshort : [(0x7B : UInt8)].length ≤ (lit "null").length := by decide
    exact ⟨hshort, nofun, fun _ => nofun, fun _ h => (Option.some.inj h).symm⟩
  | .object members, _, h => by
    obtain ⟨body, hbody, rfl⟩ := Option.map_eq_some_iff.mp h
    exact (membersReach_follows true members hbody).bracketed 0x7B 0x7D
  | .nilList, _, h => by
    cases h
    have hless : [(0x5B : UInt8), 0x5D].length < (lit "null").length := by decide
    exact ⟨Nat.le_of_lt hless, nofun, fun _ _ => hless, nofun⟩
  | .list items, _, h => by
    obtain ⟨body, hbody, rfl⟩ := Option.map_eq_some_iff.mp h
    exact (itemsReach_follows true items hbody).bracketed 0x5B 0x5D
  | .string s, _, h => by
    cases h
    exact Follows.verbatim (encodeString s)
  | .value v, text, h => by
    have hv : encode v = some text := h
    unfold Tree.reach
    rw [hv]
    exact Follows.verbatim text

theorem membersReach_follows (first : Bool) : ∀ (members : List (Bytes × Tree β)) {text : Bytes},
    membersText encode first members = some text →
      Follows (membersReach encode first members) (membersWhole members) text
  | [], _, h => by
    cases h
    exact Follows.verbatim []
  | (key, value) :: rest, _, h => by
    obtain ⟨body, hbody, h⟩ := Option.bind_eq_some_iff.mp h
    obtain ⟨others, hothers, h⟩ := Option.bind_eq_some_iff.mp h
    cases h
    have hkey := Follows.verbatim (separator first ++ (encodeString key ++ [0x3A]))
    have hrest := (Tree.reach_follows value hbody).append (membersReach_follows false rest hothers)
    simpa [membersReach, membersWhole] using hkey.append hrest

theorem itemsReach_follows (first : Bool) : ∀ (items : List (Tree β)) {text : Bytes},
    itemsText encode first items = some text →
      Follows (itemsReach encode first items) (itemsWhole items) text
  | [], _, h => by
    cases h
    exact Follows.verbatim []
  | item :: rest, _, h => by
    obtain ⟨body, hbody, h⟩ := Option.bind_eq_some_iff.mp h
    obtain ⟨others, hothers, h⟩ := Option.bind_eq_some_iff.mp h
    cases h
    have hrest := (Tree.reach_follows item hbody).append (itemsReach_follows false rest hothers)
    simpa [itemsReach, itemsWhole] using (Follows.verbatim (separator first)).append hrest

end

end

/-- What the encoder with a limit owes to the text of the plain one. -/
structure Agrees (encode : β → Option Bytes) (limit : Nat) (members : List (Bytes × Tree β))
    (text : Bytes) : Prop where
  within : text.length ≤ limit → marshalJSONLimit encode limit members = .ok text
  beyond : limit < text.length →
    ∃ full, marshalJSONLimit encode limit members = .ok full ∧ full.length = limit + 1
  bounded : (buffered ((Tree.object members).limited encode limit [])).length ≤ limit + 1

/-- How many bytes of an object come before its first nil object, if every nil list takes two. -/
def reachLength (encode : β → Option Bytes) (members : List (Bytes × Tree β)) : Nat :=
  ((Tree.object members).reach encode).1.length

section
variable {encode : β → Option Bytes}

theorem limited_maxInt (members : List (Bytes × Tree β)) :
    (Tree.object members).limited encode maxInt [] = .error .limit [] := by
  have hstuck : write maxInt [0x7B] [] = .error .limit [] := by
    have hr : remaining maxInt [] ≤ 0 := by decide
    simp only [write, if_pos hr]
  exact run_of_error hstuck

variable {members : List (Bytes × Tree β)}

theorem not_agrees_maxInt (hpos : 0 < text.length) :
    ¬ Agrees encode maxInt members text := by
  intro ha
  have hrun : marshalJSONLimit encode maxInt members = .ok [] :=
    congrArg forgiven (limited_maxInt members)
  by_cases hl : text.length ≤ maxInt
  · have he := ha.within hl
    rw [hrun] at he
    cases he
    exact Nat.lt_irrefl _ hpos
  · obtain ⟨full, he, hfull⟩ := ha.beyond (Nat.not_le.mp hl)
    rw [hrun] at he
    cases he
    exact Nat.succ_ne_zero _ hfull.symm

theorem overflow_run (hl : limit < maxInt)
    (hreach : limit < reachLength encode members) :
    ∃ full : Bytes, (Tree.object members).limited encode limit [] = .error .limit full ∧
      full.length = limit + 1 := by
  have he : Emits limit _ ((Tree.object members).reach encode) := Tree.limited_emits hl _
  have hrun := he [] (Nat.zero_le limit)
  unfold reachLength at hreach
  rwa [List.nil_append, if_pos hreach] at hrun

theorem reach_run (hl : limit < maxInt)
    (hreach : bytes.length ≤ limit) (hr : (Tree.object members).reach encode = (bytes, stop)) :
    (Tree.object members).limited encode limit [] = ended bytes stop := by
  have he : Emits limit _ ((Tree.object members).reach encode) := Tree.limited_emits hl _
  have hrun := he [] (Nat.zero_le limit)
  rw [List.nil_append, hr, if_neg (Nat.not_lt.mpr hreach)] at hrun
  exact hrun

theorem agrees_of_overflow (hl : limit < maxInt)
    (hshort : reachLength encode members ≤ text.length)
    (hreach : limit < reachLength encode members) : Agrees encode limit members text := by
  obtain ⟨full, hrun, hfull⟩ := overflow_run hl hreach
  constructor
  · intro hin
    exact absurd hreach (Nat.not_lt.mpr (Nat.le_trans hshort hin))
  · intro _
    exact ⟨full, congrArg forgiven hrun, hfull⟩
  · rw [hrun]
    exact Nat.le_of_eq hfull

theorem agrees_of_same (hl : limit < maxInt)
    (hsame : (Tree.object members).reach encode = (text, none)) :
    Agrees encode limit members text := by
  by_cases hlong : limit < text.length
  · have hr : reachLength encode members = text.length := by rw [reachLength, hsame]
    exact agrees_of_overflow hl (Nat.le_of_eq hr) (hr ▸ hlong)
  · have hrun := reach_run hl (Nat.not_lt.mp hlong) hsame
    constructor
    · intro _
      exact congrArg forgiven hrun
    · intro h
      exact absurd h hlong
    · rw [hrun]
      exact Nat.le_succ_of_le (Nat.not_lt.mp hlong)

theorem not_agrees_of_nil (hl : limit < maxInt)
    (hf : Follows ((Tree.object members).reach encode) false text)
    (hreach : reachLength encode members ≤ limit) : ¬ Agrees encode limit members text := by
  intro ha
  unfold reachLength at hreach
  cases hr : (Tree.object members).reach encode with
  | mk bytes stop =>
  rw [hr] at hf hreach
  have hrun := reach_run hl hreach hr
  cases stop with
  | none =>
    have hm : marshalJSONLimit encode limit members = .ok bytes := congrArg forgiven hrun
    have hless : bytes.length < text.length := hf.less rfl rfl
    by_cases hin : text.length ≤ limit
    · have hb := ha.within hin
      rw [hm] at hb
      cases hb
      exact Nat.lt_irrefl _ hless
    · obtain ⟨full, hb, hfull⟩ := ha.beyond (Nat.not_le.mp hin)
      rw [hm] at hb
      cases hb
      exact absurd hreach (Nat.not_le.mpr (hfull ▸ Nat.lt_succ_self limit))
  | some stop =>
    cases hf.stop stop rfl
    have hm : marshalJSONLimit encode limit members = .error .panicked := congrArg forgiven hrun
    by_cases hin : text.length ≤ limit
    · cases hm.symm.trans (ha.within hin)
    · obtain ⟨full, hb, _⟩ := ha.beyond (Nat.not_le.mp hin)
      cases hm.symm.trans hb

/-- The two encoders agree unless the limit is the greatest `int` or a nil list or nil object comes
before the limit. -/
theorem limit_agrees_iff {members : List (Bytes × Tree β)} (hmax : limit ≤ maxInt)
    (h : marshalJSON encode members = some text) :
    Agrees encode limit members text ↔
      limit < maxInt ∧ (membersWhole members = true ∨ limit < reachLength encode members) := by
  have hf := Tree.reach_follows (.object members) h
  constructor
  · intro ha
    have hl : limit < maxInt := by
      apply Nat.lt_of_le_of_ne hmax
      rintro rfl
      obtain ⟨body, _, rfl⟩ := Option.map_eq_some_iff.mp h
      have hpos : 0 < ([0x7B] ++ body ++ [0x7D] : Bytes).length := Nat.succ_pos _
      exact not_agrees_maxInt hpos ha
    refine ⟨hl, ?_⟩
    cases hw : membersWhole members with
    | true => exact .inl rfl
    | false =>
      right
      apply Nat.lt_of_not_le
      intro hreach
      have hf' : Follows ((Tree.object members).reach encode) false text := hw ▸ hf
      exact not_agrees_of_nil hl hf' hreach ha
  · rintro ⟨hl, hw | hreach⟩
    · exact agrees_of_same hl (hf.same hw)
    · exact agrees_of_overflow hl hf.short hreach

end

namespace Sample

/-- `{"a":[]any(nil)}`; no other value occurs. -/
def unset : List (Bytes × Tree Empty) := [(lit "a", .nilList)]

/-- `{"a":["b"]}`. -/
def filled : List (Bytes × Tree Empty) := [(lit "a", .list [.string (lit "b")])]

theorem unset_disagrees :
    ∃ text, marshalJSON nofun unset = some text ∧ text.length ≤ 100 ∧
      marshalJSONLimit nofun 100 unset ≠ .ok text := by
  refine ⟨lit "\x7b\"a\":null\x7d", rfl, by decide, ?_⟩
  have hrun : marshalJSONLimit nofun 100 unset = .ok (lit "\x7b\"a\":[]\x7d") := rfl
  rw [hrun]
  intro h
  cases h

theorem filled_agrees :
    ∃ text, marshalJSON nofun filled = some text ∧ Agrees nofun 5 filled text ∧
      Agrees nofun 100 filled text := by
  refine ⟨lit "\x7b\"a\":[\"b\"]\x7d", rfl, ?_, ?_⟩
  · exact (limit_agrees_iff (by decide) rfl).mpr ⟨by decide, .inl rfl⟩
  · exact (limit_agrees_iff (by decide) rfl).mpr ⟨by decide, .inl rfl⟩

end Sample

end Repost.Ordered
