import Repost.StrictJson

namespace Repost.StrictJson
open GoText
set_option autoImplicit true

theorem dropWhile_dropWhile (p : α → Bool) (l : List α) :
    (l.dropWhile p).dropWhile p = l.dropWhile p := by
  induction l with
  | nil => rfl
  | cons a l ih =>
    cases h : p a with
    | true => simpa only [List.dropWhile_cons, h, if_true] using ih
    | false => simp [h]

def SameText (r t : Bytes) : Prop := r.dropWhile isSpace = t.dropWhile isSpace

theorem SameText.whitespace (s : Scanner) : SameText s.rest s.whitespace.rest :=
  (dropWhile_dropWhile isSpace s.rest).symm

variable {s s' : Scanner}

theorem token_rest (h : s.token = .ok s') : s'.rest = s.rest := by
  unfold Scanner.token at h
  split at h
  · cases h
  · cases h
    rfl

theorem literal_rest (h : s.literal word = .ok s') :
    s'.rest = s.rest.drop word.length := by
  unfold Scanner.literal at h
  split at h
  · cases ht : s.token with
    | error e =>
      rw [ht] at h
      cases h
    | ok t =>
      rw [ht] at h
      cases h
      rw [token_rest ht]
  · cases h

theorem number_rest (h : s.number = .ok s') : skipNumber s.rest = some s'.rest := by
  unfold Scanner.number at h
  split at h
  · cases h
  · rename_i rest hs
    split at h
    · cases h
    · rw [hs, token_rest h]

theorem string_spec (h : s.string fieldName = .ok (text, s')) :
    decodeString (s.rest.drop 1) = some (text, s'.rest) := by
  unfold Scanner.string at h
  split at h
  · cases h
  · rename_i raw rest hb
    split at h
    · cases h
    · rename_i value hu
      repeat' split at h
      all_goals cases h
      all_goals simp only [decodeString, hb, hu, Option.map_some]

theorem skipByte_consume {s : Scanner} (h : SameText rest s.rest) :
    skipByte b rest = (s.whitespace.consume b).map Scanner.rest := by
  unfold skipByte Scanner.consume Scanner.whitespace
  rw [h]
  dsimp only
  cases s.rest.dropWhile isSpace with
  | nil => rfl
  | cons c r =>
    dsimp only
    split <;> rfl

theorem consume_rest (h : s.consume b = some s') : s.rest = b :: s'.rest := by
  unfold Scanner.consume at h
  split at h
  · rename_i c rest hr
    split at h
    · rename_i hc
      cases h
      rw [hr, eq_of_beq hc]
    · cases h
  · cases h

def ValueAgrees (fuel : Nat) : Prop :=
  ∀ depth s s' fuel' rest v rest', value fuel depth s = .ok s' → SameText rest s.rest →
    decodeValue fuel' rest = some (v, rest') → rest' = s'.rest

def MembersAgree (fuel : Nat) : Prop :=
  ∀ depth keys count s s' fuel' rest ms rest', members fuel depth keys count s = .ok s' →
    SameText rest s.rest → decodeMembers fuel' rest = some (ms, rest') →
    rest' = s'.rest ∧ (ms.map Prod.fst).Nodup ∧ ∀ k ∈ ms.map Prod.fst, k ∉ keys

def ElementsAgree (fuel : Nat) : Prop :=
  ∀ depth s s' fuel' rest vs rest', elements fuel depth s = .ok s' → SameText rest s.rest →
    decodeElements fuel' rest = some (vs, rest') → rest' = s'.rest

theorem bind_ok {m : Except ε α} {f : α → Except ε β} (h : m >>= f = .ok b) :
    ∃ a, m = .ok a ∧ f a = .ok b := by
  cases m with
  | error e => cases h
  | ok a => exact ⟨a, rfl, h⟩

/-- One member: its name is new, its value is scanned, and the object ends or goes on. -/
theorem members_ok (h : members (fuel + 1) depth keys count s = .ok s') :
    ∃ q key t c v, s.whitespace.consume 0x22 = some q ∧
      decodeString q.rest = some (key, Scanner.rest t) ∧ key ∉ keys ∧
      t.whitespace.consume 0x3A = some c ∧ value fuel depth c = .ok v ∧
      ((∃ e, v.whitespace.consume 0x7D = some e ∧ s'.rest = e.rest) ∨
        (v.whitespace.consume 0x7D = none ∧ ∃ n, v.whitespace.consume 0x2C = some n ∧
          members fuel depth (key :: keys) (count + 1) n = .ok s')) := by
  unfold members at h
  split at h
  · cases h
  · rename_i hq
    obtain ⟨q, hq⟩ := Option.ne_none_iff_exists'.1 (mt Option.isNone_iff_eq_none.2 hq)
    obtain ⟨a, ha, h⟩ := bind_ok h
    obtain ⟨⟨key, t⟩, hs, h⟩ := bind_ok h
    have hkey : decodeString q.rest = some (key, t.rest) := by
      rw [← string_spec hs, token_rest ha, consume_rest hq]
      rfl
    dsimp only at h
    split at h
    · cases h
    · rename_i hnew
      split at h
      · cases h
      · split at h
        · cases h
        · rename_i c hc
          obtain ⟨v, hv, h⟩ := bind_ok h
          refine ⟨q, key, t, c, v, hq, hkey, hnew, hc, hv, ?_⟩
          split at h
          · rename_i e he
            exact .inl ⟨e, he, token_rest h⟩
          · rename_i he
            split at h
            · cases h
            · rename_i n hn
              exact .inr ⟨he, n, hn, h⟩

theorem membersAgree_succ (hv : ValueAgrees fuel) (hm : MembersAgree fuel) :
    MembersAgree (fuel + 1) := by
  intro depth keys count s s' fuel' rest ms rest' h hr hd
  obtain ⟨q, key, t, c, v, hq, hkey, hnew, hc, hval, hend⟩ := members_ok h
  cases fuel' with
  | zero => cases hd
  | succ fuel' =>
    unfold decodeMembers at hd
    simp only [skipByte_consume hr, hq, hkey, skipByte_consume (s := t) rfl, hc, Option.map_some,
      Option.bind_eq_bind, Option.bind_some] at hd
    cases hdv : decodeValue fuel' c.rest with
    | none =>
      rw [hdv] at hd
      cases hd
    | some p =>
      obtain ⟨j, r⟩ := p
      obtain rfl := hv _ _ _ _ _ _ _ hval rfl hdv
      simp only [hdv, Option.bind_some, skipByte_consume (s := v) rfl] at hd
      rcases hend with ⟨e, he, hs'⟩ | ⟨he, n, hn, hrest⟩
      · simp only [he, Option.map_some] at hd
        cases hd
        refine ⟨hs'.symm, by simp, ?_⟩
        simpa using hnew
      · simp only [he, hn, Option.map_none, Option.map_some, Option.bind_some] at hd
        cases hdm : decodeMembers fuel' n.rest with
        | none =>
          rw [hdm] at hd
          cases hd
        | some p =>
          obtain ⟨ms', r'⟩ := p
          obtain ⟨rfl, hnodup, hfresh⟩ := hm _ _ _ _ _ _ _ _ _ hrest rfl hdm
          simp only [hdm, Option.bind_some] at hd
          cases hd
          refine ⟨rfl, ?_, ?_⟩
          · rw [List.map_cons, List.nodup_cons]
            exact ⟨fun hk => hfresh _ hk List.mem_cons_self, hnodup⟩
          · intro k hk
            rw [List.map_cons, List.mem_cons] at hk
            rcases hk with rfl | hk
            · exact hnew
            · exact fun hmem => hfresh k hk (List.mem_cons_of_mem _ hmem)

theorem elementsAgree_succ (hv : ValueAgrees fuel) (hm : ElementsAgree fuel) :
    ElementsAgree (fuel + 1) := by
  intro depth s s' fuel' rest vs rest' h hr hd
  unfold elements at h
  obtain ⟨v, hval, h⟩ := bind_ok h
  cases fuel' with
  | zero => cases hd
  | succ fuel' =>
    unfold decodeElements at hd
    cases hdv : decodeValue fuel' rest with
    | none =>
      rw [hdv] at hd
      cases hd
    | some p =>
      obtain ⟨j, r⟩ := p
      obtain rfl := hv _ _ _ _ _ _ _ hval hr hdv
      simp only [hdv, Option.bind_eq_bind, Option.bind_some, skipByte_consume (s := v) rfl] at hd
      split at h
      · rename_i e he
        simp only [he, Option.map_some] at hd
        cases hd
        exact (token_rest h).symm
      · rename_i he
        split at h
        · cases h
        · rename_i n hn
          simp only [he, hn, Option.map_none, Option.map_some, Option.bind_some] at hd
          cases hde : decodeElements fuel' n.rest with
          | none =>
            rw [hde] at hd
            cases hd
          | some p =>
            obtain ⟨vs', r'⟩ := p
            obtain rfl := hm _ _ _ _ _ _ _ h rfl hde
            simp only [hde, Option.bind_some] at hd
            cases hd
            rfl

theorem bracket_rest {s a : Scanner} (h : a.rest = s.rest) :
    SameText (s.rest.drop 1) (Scanner.whitespace { a with rest := a.rest.drop 1 }).rest ∧
      (Scanner.whitespace { a with rest := a.rest.drop 1 }).whitespace =
        Scanner.whitespace { a with rest := a.rest.drop 1 } := by
  rw [← h]
  exact ⟨SameText.whitespace { a with rest := a.rest.drop 1 },
    congrArg (Scanner.mk · a.tokens) (dropWhile_dropWhile _ _)⟩

theorem object_ok (h : object (fuel + 1) depth s = .ok s') :
    ∃ t : Scanner, SameText (s.rest.drop 1) t.rest ∧ t.whitespace = t ∧
      ((∃ e, t.consume 0x7D = some e ∧ s'.rest = e.rest) ∨
        (t.consume 0x7D = none ∧ members fuel depth [] 1 t = .ok s')) := by
  unfold object at h
  split at h
  · cases h
  · obtain ⟨a, ha, h⟩ := bind_ok h
    obtain ⟨hsame, hfixed⟩ := bracket_rest (token_rest ha)
    dsimp only at h
    refine ⟨_, hsame, hfixed, ?_⟩
    split at h
    · rename_i e he
      exact .inl ⟨e, he, token_rest h⟩
    · rename_i he
      exact .inr ⟨he, h⟩

theorem array_ok (h : array (fuel + 1) depth s = .ok s') :
    ∃ t : Scanner, SameText (s.rest.drop 1) t.rest ∧ t.whitespace = t ∧
      ((∃ e, t.consume 0x5D = some e ∧ s'.rest = e.rest) ∨
        (t.consume 0x5D = none ∧ elements fuel depth t = .ok s')) := by
  unfold array at h
  split at h
  · cases h
  · obtain ⟨a, ha, h⟩ := bind_ok h
    obtain ⟨hsame, hfixed⟩ := bracket_rest (token_rest ha)
    dsimp only at h
    refine ⟨_, hsame, hfixed, ?_⟩
    split at h
    · rename_i e he
      exact .inl ⟨e, he, token_rest h⟩
    · rename_i he
      exact .inr ⟨he, h⟩

def ObjectAgrees (fuel : Nat) : Prop :=
  ∀ depth s s' fuel' rest j rest', object fuel depth s = .ok s' → s.rest = 0x7B :: rest →
    (match skipByte 0x7D rest with
      | some rest => some (Json.object [], rest)
      | none => (decodeMembers fuel' rest).map (fun (ms, rest) => (.object ms, rest))) =
        some (j, rest') →
    rest' = s'.rest ∧ ∃ ms, j = .object ms ∧ (ms.map Prod.fst).Nodup

def ArrayAgrees (fuel : Nat) : Prop :=
  ∀ depth s s' fuel' rest j rest', array fuel depth s = .ok s' → s.rest = 0x5B :: rest →
    (match skipByte 0x5D rest with
      | some rest => some (Json.array [], rest)
      | none => (decodeElements fuel' rest).map (fun (vs, rest) => (.array vs, rest))) =
        some (j, rest') →
    rest' = s'.rest

theorem objectAgrees_succ (hm : MembersAgree fuel) : ObjectAgrees (fuel + 1) := by
  intro depth s s' fuel' rest j rest' h hs hd
  obtain ⟨t, ht, hw, hend⟩ := object_ok h
  rw [hs, List.drop_succ_cons, List.drop_zero] at ht
  have hskip : skipByte 0x7D rest = (t.consume 0x7D).map Scanner.rest := by
    rw [skipByte_consume ht, hw]
  rw [hskip] at hd
  rcases hend with ⟨e, he, hs'⟩ | ⟨he, hmem⟩
  · simp only [he, Option.map_some, Option.some.injEq, Prod.mk.injEq] at hd
    obtain ⟨rfl, rfl⟩ := hd
    exact ⟨hs'.symm, [], rfl, List.nodup_nil⟩
  · simp only [he, Option.map_none, Option.map_eq_some_iff, Prod.mk.injEq] at hd
    obtain ⟨⟨ms, r⟩, hdm, rfl, rfl⟩ := hd
    obtain ⟨hr, hnodup, -⟩ := hm _ _ _ _ _ _ _ _ _ hmem ht hdm
    exact ⟨hr, ms, rfl, hnodup⟩

theorem arrayAgrees_succ (he : ElementsAgree fuel) : ArrayAgrees (fuel + 1) := by
  intro depth s s' fuel' rest j rest' h hs hd
  obtain ⟨t, ht, hw, hend⟩ := array_ok h
  rw [hs, List.drop_succ_cons, List.drop_zero] at ht
  have hskip : skipByte 0x5D rest = (t.consume 0x5D).map Scanner.rest := by
    rw [skipByte_consume ht, hw]
  rw [hskip] at hd
  rcases hend with ⟨e, hc, hs'⟩ | ⟨hc, hel⟩
  · simp only [hc, Option.map_some, Option.some.injEq, Prod.mk.injEq] at hd
    exact hd.2 ▸ hs'.symm
  · simp only [hc, Option.map_none, Option.map_eq_some_iff, Prod.mk.injEq] at hd
    obtain ⟨⟨vs, r⟩, hdm, rfl, rfl⟩ := hd
    exact he _ _ _ _ _ _ _ hel ht hdm

theorem valueAgrees_succ (ho : ObjectAgrees fuel) (ha : ArrayAgrees fuel) :
    ValueAgrees (fuel + 1) := by
  intro depth s s' fuel' rest v rest' h hr hd
  cases fuel' with
  | zero => cases hd
  | succ fuel' =>
    unfold value at h
    unfold decodeValue at hd
    rw [hr] at hd
    rw [show s.rest.dropWhile isSpace = s.whitespace.rest from rfl] at hd
    cases hw : s.whitespace.rest with
    | nil =>
      rw [hw] at hd
      cases hd
    | cons b r =>
      simp only [hw] at h hd
      by_cases h1 : (b == 0x7B) = true
      · rw [if_pos h1] at h hd
        obtain rfl := eq_of_beq h1
        exact (ho _ _ _ _ _ _ _ h hw hd).1
      rw [if_neg h1] at h hd
      by_cases h2 : (b == 0x5B) = true
      · rw [if_pos h2] at h hd
        obtain rfl := eq_of_beq h2
        exact ha _ _ _ _ _ _ _ h hw hd
      rw [if_neg h2] at h hd
      by_cases h3 : (b == 0x22) = true
      · rw [if_pos h3] at h hd
        obtain ⟨t, ht, h⟩ := bind_ok h
        obtain ⟨⟨text, u⟩, hu, h⟩ := bind_ok h
        cases h
        have hdec := string_spec hu
        rw [token_rest ht, hw] at hdec
        simp only [List.drop_succ_cons, List.drop_zero] at hdec
        rw [hdec] at hd
        cases hd
        rfl
      rw [if_neg h3] at h hd
      by_cases h4 : (b == 0x74) = true
      · rw [if_pos h4] at h hd
        cases hd
        rw [literal_rest h, hw]
        rfl
      rw [if_neg h4] at h hd
      by_cases h5 : (b == 0x66) = true
      · rw [if_pos h5] at h hd
        cases hd
        rw [literal_rest h, hw]
        rfl
      rw [if_neg h5] at h hd
      by_cases h6 : (b == 0x6E) = true
      · rw [if_pos h6] at h hd
        cases hd
        rw [literal_rest h, hw]
        rfl
      rw [if_neg h6] at h hd
      have hn := number_rest h
      rw [hw] at hn
      rw [hn] at hd
      cases hd
      rfl

theorem agree (fuel : Nat) :
    ValueAgrees fuel ∧ MembersAgree fuel ∧ ElementsAgree fuel ∧ ObjectAgrees fuel ∧
      ArrayAgrees fuel := by
  induction fuel with
  | zero =>
    refine ⟨?_, ?_, ?_, ?_, ?_⟩
    · intro _ _ _ _ _ _ _ h
      rw [value] at h
      cases h
    · intro _ _ _ _ _ _ _ _ _ h
      rw [members] at h
      cases h
    · intro _ _ _ _ _ _ _ h
      rw [elements] at h
      cases h
    · intro _ _ _ _ _ _ _ h
      rw [object] at h
      cases h
    · intro _ _ _ _ _ _ _ h
      rw [array] at h
      cases h
  | succ fuel ih =>
    obtain ⟨hv, hm, he, ho, ha⟩ := ih
    exact ⟨valueAgrees_succ ho ha, membersAgree_succ hv hm, elementsAgree_succ hv he,
      objectAgrees_succ hm, arrayAgrees_succ he⟩

theorem decodeValue_object (h : value fuel depth s = .ok s')
    (hr : SameText rest s.rest) (hd : decodeValue fuel' rest = some (.object ms, rest')) :
    (ms.map Prod.fst).Nodup := by
  cases fuel with
  | zero =>
    rw [value] at h
    cases h
  | succ fuel =>
    cases fuel' with
    | zero =>
      rw [decodeValue] at hd
      cases hd
    | succ fuel' =>
      unfold value at h
      unfold decodeValue at hd
      rw [hr] at hd
      rw [show s.rest.dropWhile isSpace = s.whitespace.rest from rfl] at hd
      cases hw : s.whitespace.rest with
      | nil =>
        rw [hw] at hd
        cases hd
      | cons b r =>
        simp only [hw] at h hd
        by_cases h1 : (b == 0x7B) = true
        · rw [if_pos h1] at h hd
          obtain rfl := eq_of_beq h1
          obtain ⟨-, ms', hms, hnodup⟩ := (agree fuel).2.2.2.1 _ _ _ _ _ _ _ h hw hd
          cases hms
          exact hnodup
        · rw [if_neg h1] at hd
          repeat' split at hd
          all_goals simp at hd

theorem parse_object_nodup (h : parse data = .ok (.object ms)) : (ms.map Prod.fst).Nodup := by
  unfold parse at h
  split at h
  · cases h
  · split at h
    · cases h
    · split at h
      · cases h
      · rename_i hscan
        split at h
        · rename_i v hdec
          cases h
          unfold Scanner.parse at hscan
          split at hscan
          · cases hscan
          · rename_i s hval
            obtain ⟨⟨j, rest⟩, hdv, rfl⟩ := Option.map_eq_some_iff.1 hdec
            exact decodeValue_object hval (SameText.whitespace { rest := data }) hdv
        · cases h

end Repost.StrictJson
