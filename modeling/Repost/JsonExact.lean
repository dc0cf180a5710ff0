import Repost.JsonComplete

namespace Repost.StrictJson
open GoText
set_option autoImplicit true

def ValueSound (fuel : Nat) : Prop :=
  ∀ depth s s', value fuel depth s = .ok s' →
    ∃ text v, Blanks s.rest text ∧ Denotes text v s'.rest ∧ Distinct v.nodes

def ElementsSound (fuel : Nat) : Prop :=
  ∀ depth s s', elements fuel depth s = .ok s' →
    ∃ items, Elements s.rest items s'.rest ∧ Distinct (itemNodes items)

def MembersSound (fuel : Nat) : Prop :=
  ∀ depth keys count s s', members fuel depth keys count s = .ok s' →
    ∃ ms, Members s.rest ms s'.rest ∧ Distinct (memberNodes ms) ∧ (ms.map Prod.fst).Nodup ∧
      ∀ m ∈ ms, m.1 ∉ keys

def ArraySound (fuel : Nat) : Prop :=
  ∀ depth s s' text, s.rest = 0x5B :: text → array fuel depth s = .ok s' →
    ∃ v, Denotes (0x5B :: text) v s'.rest ∧ Distinct v.nodes

def ObjectSound (fuel : Nat) : Prop :=
  ∀ depth s s' text, s.rest = 0x7B :: text → object fuel depth s = .ok s' →
    ∃ v, Denotes (0x7B :: text) v s'.rest ∧ Distinct v.nodes

theorem Blanks.trans (h : Blanks text t) (h' : Blanks t rest) : Blanks text rest := by
  obtain ⟨w, rfl, hw⟩ := h
  obtain ⟨w', rfl, hw'⟩ := h'
  refine ⟨w ++ w', by rw [List.append_assoc], fun b hb => ?_⟩
  rcases List.mem_append.1 hb with hb | hb
  · exact hw b hb
  · exact hw' b hb

theorem Elements.before (hb : Blanks text t) (h : Elements t items rest) :
    Elements text items rest := by
  cases h with
  | last hb' hv he => exact .last (hb.trans hb') hv he
  | more hb' hv hc h => exact .more (hb.trans hb') hv hc h

theorem Members.before (hb : Blanks text t) (h : Members t ms rest) : Members text ms rest := by
  cases h with
  | last hb' hk hc hv hd he => exact .last (hb.trans hb') hk hc hv hd he
  | more hb' hk hc hv hd hm h => exact .more (hb.trans hb') hk hc hv hd hm h

variable {s s' : Scanner}

theorem Blanks.of_consume (h : s.whitespace.consume b = some s') :
    Blanks s.rest (b :: s'.rest) := consume_rest h ▸ Blanks.of_dropWhile s.rest

theorem Blanks.of_sameText {t : Scanner} (h : SameText text t.rest) (ht : t.whitespace = t) :
    Blanks text t.rest := by
  have hrest : t.rest = text.dropWhile isSpace := (congrArg Scanner.rest ht).symm.trans h.symm
  exact hrest ▸ Blanks.of_dropWhile text

theorem closeOr_ok (h : closeOr close more s = .ok s') :
    Blanks s.rest (close :: s'.rest) ∨
      ∃ n : Scanner, Blanks s.rest (0x2C :: n.rest) ∧ more n = .ok s' := by
  unfold closeOr at h
  split at h
  · rename_i e he
    exact .inl (token_rest h ▸ Blanks.of_consume he)
  · split at h
    · cases h
    · rename_i n hn
      exact .inr ⟨n, Blanks.of_consume hn, h⟩

theorem elementsSound_succ (hv : ValueSound fuel) (he : ElementsSound fuel) :
    ElementsSound (fuel + 1) := by
  intro depth s s' h
  rw [elements_succ] at h
  obtain ⟨m, hval, h⟩ := bind_ok h
  obtain ⟨text, v, hb, hden, hd⟩ := hv _ _ _ hval
  rcases closeOr_ok h with hend | ⟨n, hc, hmore⟩
  · refine ⟨[v], .last hb hden hend, ?_⟩
    simpa only [itemNodes, List.append_nil] using hd
  · obtain ⟨items, hitems, hd'⟩ := he _ _ _ hmore
    exact ⟨v :: items, .more hb hden hc hitems, Distinct.append_iff.2 ⟨hd, hd'⟩⟩

theorem membersSound_succ (hv : ValueSound fuel) (hm : MembersSound fuel) :
    MembersSound (fuel + 1) := by
  intro depth keys count s s' h
  obtain ⟨q, key, t, c, m, hq, hkey, hnew, hc, hval, hend⟩ := members_ok h
  have hk := Chars.of_decodeString hkey
  obtain ⟨text, v, hb, hden, hd⟩ := hv _ _ _ hval
  rcases hend with ⟨e, he, hs'⟩ | ⟨-, n, hn, hmore⟩
  · refine ⟨[(key, v)], .last (.of_consume hq) hk (.of_consume hc) hb hden ?_, ?_, ?_, ?_⟩
    · exact hs' ▸ Blanks.of_consume he
    · simpa only [memberNodes, List.append_nil] using hd
    · simp
    · simpa using hnew
  · obtain ⟨ms, hms, hd', hnodup, hfresh⟩ := hm _ _ _ _ _ hmore
    refine ⟨(key, v) :: ms, .more (.of_consume hq) hk (.of_consume hc) hb hden (.of_consume hn) hms,
      Distinct.append_iff.2 ⟨hd, hd'⟩, ?_, ?_⟩
    · rw [List.map_cons, List.nodup_cons]
      refine ⟨fun hmem => ?_, hnodup⟩
      obtain ⟨m, hm, hkey⟩ := List.mem_map.1 hmem
      exact hfresh m hm (hkey ▸ List.mem_cons_self)
    · intro m hmem
      rcases List.mem_cons.1 hmem with rfl | hmem
      · exact hnew
      · exact fun hk => hfresh m hmem (List.mem_cons_of_mem _ hk)

theorem arraySound_succ (he : ElementsSound fuel) : ArraySound (fuel + 1) := by
  intro depth s s' text hs h
  obtain ⟨t, hsame, hfixed, hend⟩ := array_ok h
  rw [hs, List.drop_succ_cons, List.drop_zero] at hsame
  have hb := Blanks.of_sameText hsame hfixed
  rcases hend with ⟨e, hc, hs'⟩ | ⟨-, hel⟩
  · refine ⟨.array [], .emptyArray ?_, by simp [Distinct, Json.nodes, itemNodes]⟩
    rw [hs', ← consume_rest hc]
    exact hb
  · obtain ⟨items, hitems, hd⟩ := he _ _ _ hel
    refine ⟨.array items, .array (hitems.before hb), fun ms hms => ?_⟩
    rcases List.mem_cons.1 hms with heq | hms
    · cases heq
    · exact hd ms hms

theorem objectSound_succ (hm : MembersSound fuel) : ObjectSound (fuel + 1) := by
  intro depth s s' text hs h
  obtain ⟨t, hsame, hfixed, hend⟩ := object_ok h
  rw [hs, List.drop_succ_cons, List.drop_zero] at hsame
  have hb := Blanks.of_sameText hsame hfixed
  rcases hend with ⟨e, hc, hs'⟩ | ⟨-, hmem⟩
  · refine ⟨.object [], .emptyObject ?_, by simp [Distinct, Json.nodes, memberNodes]⟩
    rw [hs', ← consume_rest hc]
    exact hb
  · obtain ⟨ms, hms, hd, hnodup, -⟩ := hm _ _ _ _ _ hmem
    refine ⟨.object ms, .object (hms.before hb), fun o ho => ?_⟩
    rcases List.mem_cons.1 ho with heq | ho
    · cases heq
      exact hnodup
    · exact hd o ho

theorem literal_text (h : s.literal word = .ok s') : s.rest = word ++ s'.rest := by
  have hrest := literal_rest h
  unfold Scanner.literal at h
  split at h
  · rename_i hp
    obtain ⟨r, hr⟩ := List.isPrefixOf_iff_prefix.1 hp
    rw [hrest, ← hr, List.drop_left]
  · cases h

theorem distinct_scalar {v : Json} (hv : v.nodes = [v]) (hs : ∀ ms, v ≠ .object ms) :
    Distinct v.nodes := by
  intro ms hms
  rw [hv, List.mem_singleton] at hms
  exact absurd hms.symm (hs ms)

theorem literal_sound (h : s.whitespace.literal word = .ok s')
    (hden : ∀ rest, Denotes (word ++ rest) v rest) (hv : v.nodes = [v])
    (hs : ∀ ms, v ≠ .object ms) :
    ∃ text v, Blanks s.rest text ∧ Denotes text v s'.rest ∧ Distinct v.nodes := by
  refine ⟨word ++ s'.rest, v, ?_, hden _, distinct_scalar hv hs⟩
  rw [← literal_text h]
  exact .of_dropWhile s.rest

theorem valueSound_succ (ho : ObjectSound fuel) (ha : ArraySound fuel) : ValueSound (fuel + 1) := by
  intro depth s s' h
  cases hw : s.whitespace.rest with
  | nil =>
    rw [value, hw] at h
    cases h
  | cons b t =>
    have hb : Blanks s.rest (b :: t) := hw ▸ Blanks.of_dropWhile s.rest
    rw [value_head hw] at h
    simp only [beq_iff_eq] at h
    split at h
    · subst b
      obtain ⟨v, hv, hd⟩ := ho _ _ _ _ hw h
      exact ⟨_, v, hb, hv, hd⟩
    split at h
    · subst b
      obtain ⟨v, hv, hd⟩ := ha _ _ _ _ hw h
      exact ⟨_, v, hb, hv, hd⟩
    split at h
    · subst b
      obtain ⟨q, hq, h⟩ := bind_ok h
      obtain ⟨⟨content, u⟩, hu, h⟩ := bind_ok h
      cases h
      have hdec := string_spec hu
      rw [token_rest hq, hw, List.drop_succ_cons, List.drop_zero] at hdec
      exact ⟨_, .string content, hb, .string (.of_decodeString hdec),
        distinct_scalar rfl (by intro ms hms; cases hms)⟩
    split at h
    · exact literal_sound h (fun _ => .bool (b := true)) rfl (by intro ms hms; cases hms)
    split at h
    · exact literal_sound h (fun _ => .bool (b := false)) rfl (by intro ms hms; cases hms)
    split at h
    · exact literal_sound h (fun _ => .null) rfl (by intro ms hms; cases hms)
    obtain ⟨w, hnum, hrest⟩ := skipNumber_split (number_rest h)
    refine ⟨w ++ s'.rest, .number w, ?_, .number hnum, distinct_scalar rfl (by intro ms hms; cases hms)⟩
    exact hrest ▸ Blanks.of_dropWhile s.rest

theorem sound (fuel : Nat) :
    ValueSound fuel ∧ ElementsSound fuel ∧ MembersSound fuel ∧ ArraySound fuel ∧ ObjectSound fuel := by
  induction fuel with
  | zero =>
    refine ⟨?_, ?_, ?_, ?_, ?_⟩
    · intro _ _ _ h
      rw [value] at h
      cases h
    · intro _ _ _ h
      rw [elements] at h
      cases h
    · intro _ _ _ _ _ h
      rw [members] at h
      cases h
    · intro _ _ _ _ _ h
      rw [array] at h
      cases h
    · intro _ _ _ _ _ h
      rw [object] at h
      cases h
  | succ fuel ih =>
    obtain ⟨hv, he, hm, ha, ho⟩ := ih
    exact ⟨valueSound_succ ho ha, elementsSound_succ hv he, membersSound_succ hv hm,
      arraySound_succ he, objectSound_succ hm⟩

theorem parse_sound (h : Scanner.parse { rest := data } = .ok ()) :
    ∃ v, Document data v ∧ Distinct v.nodes := by
  unfold Scanner.parse at h
  split at h
  · cases h
  · rename_i s hs
    split at h
    · rename_i hend
      obtain ⟨text, v, hb, hden, hd⟩ := (sound _).1 _ _ _ hs
      refine ⟨v, ⟨text, s.rest, (Blanks.of_dropWhile data).trans hb, hden, ?_⟩, hd⟩
      exact hend ▸ Blanks.of_dropWhile s.rest
    · cases h

theorem parse_accepts_iff :
    Scanner.parse { rest := data } = .ok () ↔
      ∃ v, Document data v ∧ Distinct v.nodes ∧ v.WithinLimits := by
  constructor
  · intro h
    obtain ⟨v, hdoc, hd⟩ := parse_sound h
    exact ⟨v, hdoc, hd, (parse_limited hdoc hd).ok_iff.1 h⟩
  · rintro ⟨v, hdoc, hd, hlimits⟩
    exact (parse_limited hdoc hd).ok_iff.2 hlimits

/-- The checks of `Parse` before it decodes. -/
def screen (data : Bytes) : Except Failure Unit :=
  if data.length > maxDocumentBytes then .error .limit
  else if data.take 3 = [0xEF, 0xBB, 0xBF] || !validUTF8 data then .error .protocol
  else Scanner.parse { rest := data }

theorem parse_eq_screen (data : Bytes) :
    parse data =
      match screen data with
      | .error e => .error e
      | .ok () =>
        match decode data with
        | some v => .ok v
        | none => .error .protocol := by
  unfold parse screen
  split
  · rfl
  · split
    · rfl
    · rfl

def PlainText (data : Bytes) : Prop := validUTF8 data = true ∧ ¬ [0xEF, 0xBB, 0xBF] <+: data

theorem screen_rejects_iff :
    (data.take 3 = [0xEF, 0xBB, 0xBF] || !validUTF8 data) = true ↔ ¬ PlainText data := by
  unfold PlainText
  rw [Bool.or_eq_true, decide_eq_true_eq, List.prefix_iff_eq_take, not_and_or, not_not,
    Bool.not_eq_true', Bool.not_eq_true, or_comm, eq_comm (a := data.take 3)]
  rfl

theorem screen_eq (hlen : data.length ≤ maxDocumentBytes) (h : PlainText data) :
    screen data = Scanner.parse { rest := data } := by
  unfold screen
  rw [if_neg (Nat.not_lt.2 hlen), if_neg (mt screen_rejects_iff.1 (not_not.2 h))]

theorem screen_plain (hlen : data.length ≤ maxDocumentBytes) (h : screen data = .ok ()) :
    PlainText data := by
  by_contra hplain
  unfold screen at h
  rw [if_neg (Nat.not_lt.2 hlen), if_pos (screen_rejects_iff.2 hplain)] at h
  cases h

/-- The scanner accepts exactly the documents with distinct names within the limits, and a limit
is all that it reports about the other documents with distinct names. -/
theorem screen_exact (hlen : data.length ≤ maxDocumentBytes) :
    (screen data = .ok () ↔
      PlainText data ∧ ∃ v, Document data v ∧ Distinct v.nodes ∧ v.WithinLimits) ∧
    (∀ v, PlainText data → Document data v → Distinct v.nodes → ¬ v.WithinLimits →
      screen data = .error .limit) := by
  refine ⟨⟨fun h => ?_, fun ⟨hplain, h⟩ => ?_⟩, fun v hplain hdoc hd hlimits => ?_⟩
  · have hplain := screen_plain hlen h
    exact ⟨hplain, parse_accepts_iff.1 (screen_eq hlen hplain ▸ h)⟩
  · rw [screen_eq hlen hplain]
    exact parse_accepts_iff.2 h
  · rw [screen_eq hlen hplain]
    rcases parse_limited hdoc hd with ⟨hfits, -⟩ | ⟨-, herr⟩
    · exact absurd hfits hlimits
    · exact herr

theorem screen_exact_on_escaped_pair :
    PlainText (lit "[1, \"\\ud83d\\ude00\"]") ∧
      ∃ v, Document (lit "[1, \"\\ud83d\\ude00\"]") v ∧ Distinct v.nodes ∧ v.WithinLimits :=
  (screen_exact (by decide +kernel)).1.1 (by decide +kernel)

end Repost.StrictJson
