import Repost.JsonDecoding
import Repost.JsonExact

namespace Repost.StrictJson
open GoText
set_option autoImplicit true

/-- What `Parse` returns is the value that the document stands for, and it returns one exactly for
the plain documents with distinct names within the limits. -/
theorem parse_returns_meaning (data : Bytes) (v : Json) :
    parse data = .ok v ↔ data.length ≤ maxDocumentBytes ∧ PlainText data ∧ Document data v ∧
      Distinct v.nodes ∧ v.WithinLimits := by
  rw [parse_eq_screen]
  constructor
  · intro h
    cases hs : screen data with
    | error e =>
      rw [hs] at h
      cases h
    | ok u =>
      have hlen : data.length ≤ maxDocumentBytes := by
        by_contra hlen
        rw [screen, if_pos (Nat.not_le.1 hlen)] at hs
        cases hs
      have hplain := screen_plain hlen hs
      obtain ⟨v', hdoc, hd, hlimits⟩ := parse_accepts_iff.1 (screen_eq hlen hplain ▸ hs)
      simp only [hs, decode_document hdoc] at h
      cases h
      exact ⟨hlen, hplain, hdoc, hd, hlimits⟩
  · rintro ⟨hlen, hplain, hdoc, hd, hlimits⟩
    rw [screen_eq hlen hplain, parse_accepts_iff.2 ⟨v, hdoc, hd, hlimits⟩]
    simp only [decode_document hdoc]

end Repost.StrictJson
