import Repost.Http1Framing
import Repost.ResponseFactory

namespace Repost
open GoText
set_option autoImplicit true

/-- The first member of a gzip stream: what it holds, whether it ends well, and how much of the
input lies behind it. -/
structure GzipStream where
  content : Bytes
  sound : Bool
  unread : Nat

/-- `none` when the header is bad. -/
abbrev GzipDecoder := Bytes → Option GzipStream

namespace GzipStream

/-- A reader that hands over the whole stream piece by piece. -/
structure InPieces (s : GzipStream) (g : H1.Gunzip) : Prop where
  content : g.pieces.flatten = s.content
  ok : g.ok = s.sound
  unread : g.unread = s.unread

/-- A reader behind a limit. Whether it notices that the stream does not end well is open when the
limit comes first. -/
structure UpTo (limit : Nat) (s : GzipStream) (g : LimitedGunzip limit) : Prop where
  decoded : g.decoded = s.content.take limit
  ok : s.content.length < limit → g.ok = s.sound
  unread : s.content.length < limit → g.unread = s.unread
  sound : s.sound = true → g.ok = true

/-- The stream of an input is complete and within the limits of a response. -/
def Fits (input : Bytes) (s : GzipStream) : Prop :=
  s.sound = true ∧ s.unread = 0 ∧ s.content.length ≤ input.length * Limits.expansionRatio ∧
    s.content.length ≤ Limits.bodyBytes

instance (input : Bytes) (s : GzipStream) : Decidable (s.Fits input) :=
  inferInstanceAs (Decidable (_ ∧ _ ∧ _ ∧ _))

end GzipStream

/-- Both uses of the reader decode alike. -/
structure GzipDecoder.Reads (decoder : GzipDecoder) (gzip : H1.GzipReader)
    (gunzip : GunzipLimited) : Prop where
  pieces : ∀ input, Option.Rel GzipStream.InPieces (decoder input) (gzip input)
  limited : ∀ limit input, Option.Rel (GzipStream.UpTo limit) (decoder input) (gunzip limit input)
  empty : decoder [] = none

theorem GzipDecoder.Reads.nothing :
    GzipDecoder.Reads (fun _ => none) (fun _ => none) (fun _ _ => none) :=
  ⟨fun _ => .none, fun _ _ => .none, rfl⟩

/-- The content of a body that is complete and within the limits. -/
def GzipDecoder.unpack (decoder : GzipDecoder) (input : Bytes) : Option Bytes :=
  (decoder input).bind fun s => if s.Fits input then some s.content else none

def GzipDecoder.decode (decoder : GzipDecoder) (encoding : Encoding) (input : Bytes) :
    Option Bytes :=
  match encoding with
  | .identity => some input
  | .gzip => decoder.unpack input

namespace H1

def Err.Undecodable (e : Err) : Prop := e = .protocol ∨ e = .expansionRatio ∨ e = .bodyTooLarge

theorem gunzipLoop_fits (pieces : List Bytes) (before : Bytes)
    (hl : (before ++ pieces.flatten).length ≤ limit)
    (hm : (before ++ pieces.flatten).length ≤ Limits.bodyBytes) :
    gunzipLoop limit (.inr ()) pieces before = (before ++ pieces.flatten, none) := by
  induction pieces generalizing before with
  | nil => simp [gunzipLoop]
  | cons piece pieces ih =>
    rw [List.flatten_cons, ← List.append_assoc] at hl hm ⊢
    have hl' := hl
    have hm' := hm
    simp only [List.length_append] at hl' hm'
    have hwhole : piece.take (limit + 1 - before.length) = piece :=
      List.take_of_length_le (by omega)
    unfold gunzipLoop
    simp only [hwhole]
    rw [if_neg (by simp only [List.length_append]; omega),
      if_neg (by simp only [List.length_append]; omega)]
    exact ih (before ++ piece) hl hm

theorem gunzipLoop_error (he : ∀ e, ending = .inl e → e.Undecodable)
    (h : gunzipLoop limit ending pieces before = (decoded, some e)) : e.Undecodable := by
  induction pieces generalizing before with
  | nil =>
    unfold gunzipLoop at h
    split at h
    · cases h
      exact he _ rfl
    · cases h
  | cons piece pieces ih =>
    unfold gunzipLoop at h
    dsimp only at h
    split at h
    · cases h
      exact .inr (.inl rfl)
    · split at h
      · cases h
        exact .inr (.inr rfl)
      · exact ih h

theorem decodeGzip_error (h : decodeGzip gzip input = (decoded, some e)) : e.Undecodable := by
  unfold decodeGzip at h
  split at h
  · cases h
    exact .inl rfl
  · refine gunzipLoop_error ?_ h
    intro e he
    split at he
    · cases he
    · cases he
      exact .inl rfl

/-- The read loop decodes exactly what is complete and within the limits. -/
theorem decodeGzip_none_iff (hp : Option.Rel GzipStream.InPieces (decoder input) (gzip input)) :
    decodeGzip gzip input = (decoded, none) ↔
      GzipDecoder.unpack decoder input = some decoded := by
  unfold GzipDecoder.unpack
  constructor
  · intro h
    obtain ⟨hd, hl, hm⟩ := decodeGzip_eq h
    cases hd with
    | gzip g hg hok hu =>
      rw [hg] at hp
      cases hp' : decoder input with
      | none =>
        rw [hp'] at hp
        cases hp
      | some s =>
        rw [hp'] at hp
        cases hp with
        | some hs =>
          have hfits : s.Fits input := by
            refine ⟨by rw [← hs.ok, hok], by rw [← hs.unread, hu], ?_, ?_⟩
            · rw [← hs.content]
              exact hl
            · rw [← hs.content]
              exact hm
          rw [Option.bind_some, if_pos hfits, hs.content]
  · intro h
    obtain ⟨s, hs, hf⟩ := Option.bind_eq_some_iff.1 h
    split at hf
    · rename_i hfits
      cases hf
      obtain ⟨hsound, hunread, hl, hm⟩ := hfits
      rw [hs] at hp
      unfold decodeGzip
      cases hg : gzip input with
      | none =>
        rw [hg] at hp
        cases hp
      | some g =>
        rw [hg] at hp
        cases hp with
        | some hp =>
          rw [← hp.content] at hl hm ⊢
          simp only [hp.ok, hp.unread, hsound, hunread, decide_true, Bool.and_self, if_true]
          have := gunzipLoop_fits g.pieces [] (by simpa using hl) (by simpa using hm)
          simpa using this
    · cases hf

end H1

end Repost
