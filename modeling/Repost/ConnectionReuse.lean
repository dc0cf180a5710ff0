import Repost.Http1Framing
import Repost.RawTransport
import Repost.Runs

namespace Repost
open GoText Runs
set_option autoImplicit true

/-- The last byte of the white space among U+2000 to U+203F. -/
def generalSpace (b : UInt8) : Bool :=
  (0x80 ≤ b && b ≤ 0x8A) || b == 0xA8 || b == 0xA9 || b == 0xAF

/-- The bytes of the white space character at the front, none if there is none. -/
def spaceWidth : Bytes → Nat
  | 0xC2 :: 0x85 :: _ | 0xC2 :: 0xA0 :: _ => 2
  | 0xE1 :: 0x9A :: 0x80 :: _ | 0xE2 :: 0x81 :: 0x9F :: _ | 0xE3 :: 0x80 :: 0x80 :: _ => 3
  | 0xE2 :: 0x80 :: b :: _ => if generalSpace b then 3 else 0
  | b :: _ => if (0x09 ≤ b && b ≤ 0x0D) || b == 0x20 then 1 else 0
  | [] => 0

/-- The same for the back of a text, which is given in reverse. -/
def spaceWidthBack : Bytes → Nat
  | 0x85 :: 0xC2 :: _ | 0xA0 :: 0xC2 :: _ => 2
  | 0x80 :: 0x9A :: 0xE1 :: _ | 0x9F :: 0x81 :: 0xE2 :: _ | 0x80 :: 0x80 :: 0xE3 :: _ => 3
  | b :: 0x80 :: 0xE2 :: _ => if generalSpace b then 3 else 0
  | b :: _ => if (0x09 ≤ b && b ≤ 0x0D) || b == 0x20 then 1 else 0
  | [] => 0

def trimBy (width : Bytes → Nat) : Nat → Bytes → Bytes
  | 0, s => s
  | fuel + 1, s => if width s = 0 then s else trimBy width fuel (s.drop (width s))

/-- `strings.TrimSpace` of valid UTF-8, which need not be ASCII here. -/
def trimSpace (s : Bytes) : Bytes :=
  let s := trimBy spaceWidth s.length s
  (trimBy spaceWidthBack s.length s.reverse).reverse

/-- `strings.Split` at commas. -/
def splitComma : Bytes → List Bytes
  | [] => [[]]
  | b :: s =>
    if b == 0x2C then [] :: splitComma s
    else
      match splitComma s with
      | token :: tokens => (b :: token) :: tokens
      | [] => [[b]]

def responseClosesConnection (headers : List HeaderField) : Bool :=
  headers.any fun h => equalFold h.name (lit "connection") &&
    (splitComma h.value).any fun token => equalFold (trimSpace token) (lit "close")

/-- Whether the transport gives the connection of an exchange back to the pool for another one. -/
def reusableH1 (ctxErr : Bool) (exchange : RawExchange) : Bool :=
  exchange.err.isNone && !ctxErr && exchange.response.status ≥ 200 &&
    !responseClosesConnection exchange.response.headers

namespace H1

def Head.behind (ending : GoError) (head : Head) : Bytes :=
  match head.length with
  | some length => head.rest.drop length
  | none =>
    if head.chunked then
      match readChunked ending (head.rest.length + 1) [] head.rest with
      | (_, .ok rest) => rest
      | (_, .error _) => []
    else head.rest

/-- What a response leaves unread. After an error nobody reads on, so nothing counts as left. -/
def unreadBehind (gzip : GzipReader) (ending : GoError) (input : Bytes) : Bytes :=
  match readResponse gzip ending input with
  | { final := some head, err := none, .. } => head.behind ending
  | _ => []

end H1

abbrev Arrival := Nat × UInt8

structure ReadFrom where
  exchange : Nat
  bytes : List Arrival
  response : H1.Response

/-- A connection: the exchanges begun on it, what has arrived and is not read yet, whether the pool
may hand it out, and what was read. -/
structure ReusedConnection where
  begun : Nat := 0
  unread : List Arrival := []
  reusable : Bool := true
  responses : List ReadFrom := []

/-- One exchange: what the connection does to it, what arrives from the moment in which the request
begins to be written, and whether the context has ended when the exchange has. -/
structure ExchangeScript where
  wire : H1.Request
  setDeadline : Option H1.GoError := none
  writes : H1.Writes := []
  incoming : Bytes
  ending : H1.GoError := {}
  wall : Option Time := none
  ctxErr : Bool := false

namespace ReusedConnection

def view (c : ReusedConnection) (x : ExchangeScript) : RawH1Connection :=
  { setDeadline := x.setDeadline
    writes := x.writes
    buffered := c.unread.map Prod.snd
    incoming := x.incoming
    ending := x.ending }

def input (c : ReusedConnection) (x : ExchangeScript) : List Arrival :=
  c.unread ++ x.incoming.map (c.begun + 1, ·)

def taken (gzip : H1.GzipReader) (c : ReusedConnection) (x : ExchangeScript) : Nat :=
  (c.input x).length - (H1.unreadBehind gzip x.ending ((c.input x).map Prod.snd)).length

def exchange (gzip : H1.GzipReader) (c : ReusedConnection) (x : ExchangeScript) :
    ReusedConnection :=
  let result := exchangeH1 gzip (c.view x) x.wire x.wall
  let taken := if result.requestWrote then c.taken gzip x else 0
  { begun := c.begun + 1
    unread := (c.input x).drop taken
    reusable := reusableH1 x.ctxErr result
    responses :=
      if result.requestWrote then
        c.responses ++
          [{ exchange := c.begun + 1
             bytes := (c.input x).take taken
             response := result.response }]
      else c.responses }

end ReusedConnection

inductive ConnectionAct where
  | arrive (bytes : Bytes)
  | exchange (x : ExchangeScript)

/-- A connection from its dial on: bytes arrive between the exchanges, and the next exchange begins
while the pool may hand the connection out. -/
def connectionSystem (gzip : H1.GzipReader) : System ReusedConnection ConnectionAct where
  Init c := c = {}
  step c
    | .arrive bytes => some { c with unread := c.unread ++ bytes.map (c.begun, ·) }
    | .exchange x => if c.reusable then some (c.exchange gzip x) else none

/-- Every byte of the response arrived after its request began to be written. -/
def ReadFrom.Own (r : ReadFrom) : Prop := ∀ a ∈ r.bytes, a.1 = r.exchange

namespace H1

def Behind (rest wire : Bytes) : Prop := rest <:+ wire ∧ rest.length < wire.length

theorem Behind.of_suffix (h : rest <:+ middle) (hb : Behind middle wire) : Behind rest wire :=
  ⟨h.trans hb.1, Nat.lt_of_le_of_lt h.length_le hb.2⟩

theorem readLine_behind (h : readLine ending limit wire = .ok (line, rest)) : Behind rest wire := by
  obtain ⟨rfl, -, -⟩ := readLine_eq h
  refine ⟨List.suffix_append _ _, ?_⟩
  simp only [List.length_append, crlf, List.length_cons]
  omega

theorem readHeaders_suffix
    (h : readHeaders ending left headers size wire = (headers', .ok rest)) : rest <:+ wire := by
  induction left generalizing headers size wire with
  | zero =>
    unfold readHeaders at h
    split at h
    · cases h
    · rename_i hline
      cases h
      exact (readLine_behind hline).1
    · cases h
  | succ left ih =>
    unfold readHeaders at h
    split at h
    · cases h
    · rename_i hline
      cases h
      exact (readLine_behind hline).1
    · rename_i hline
      dsimp only at h
      split at h
      · cases h
      · split at h
        · cases h
        · exact (ih h).trans (readLine_behind hline).1

theorem readHead_behind (h : readHead ending wire = (response, .ok head)) :
    Behind head.rest wire := by
  unfold readHead at h
  split at h
  · cases h
  · rename_i hline
    split at h
    · cases h
    · split at h
      · cases h
      · rename_i hheaders
        simp only [Prod.mk.injEq] at h
        obtain ⟨-, h⟩ := h
        split at h
        · cases h
        · cases h
          exact .of_suffix (readHeaders_suffix hheaders) (readLine_behind hline)

theorem readFinalHead_behind (h : readFinalHead ending left wire = (response, .ok head)) :
    Behind head.rest wire := by
  induction left generalizing wire with
  | zero =>
    unfold readFinalHead at h
    split at h
    · cases h
    · rename_i hh
      split at h
      · cases h
        exact readHead_behind hh
      · cases h
  | succ left ih =>
    unfold readFinalHead at h
    split at h
    · cases h
    · rename_i hh
      split at h
      · cases h
        exact readHead_behind hh
      · dsimp only at h
        split at h
        · cases h
        · exact .of_suffix (ih h).1 (readHead_behind hh)

theorem Chunked.suffix (h : Chunked wire body rest) : rest <:+ wire := by
  induction h with
  | last => exact (List.suffix_append _ _).trans (List.suffix_append _ _)
  | chunk _ _ _ _ ih =>
    refine ih.trans ?_
    refine (List.suffix_append crlf _).trans ?_
    exact (List.suffix_append _ _).trans (List.suffix_append _ _)

theorem Head.behind_suffix (ending : GoError) (head : Head) : head.behind ending <:+ head.rest := by
  unfold Head.behind
  split
  · exact List.drop_suffix _ _
  · split
    · split
      · rename_i hc
        obtain ⟨_, -, hw, -⟩ := readChunked_eq hc (Nat.zero_le _)
        exact hw.suffix
      · exact List.nil_suffix
    · exact List.suffix_refl _

theorem unreadBehind_suffix (gzip : GzipReader) (ending : GoError) (input : Bytes) :
    unreadBehind gzip ending input <:+ input ∧
      (input ≠ [] → (unreadBehind gzip ending input).length < input.length) := by
  unfold unreadBehind
  split
  · rename_i head hr
    have hfinal : Behind head.rest input := by
      unfold readResponse at hr
      split at hr
      · cases hr
      · rename_i hh
        simp only [Read.mk.injEq, Option.some.injEq] at hr
        obtain ⟨-, rfl, -⟩ := hr
        exact readFinalHead_behind hh
    have hb := Behind.of_suffix (head.behind_suffix ending) hfinal
    exact ⟨hb.1, fun _ => hb.2⟩
  · exact ⟨List.nil_suffix, List.length_pos_iff.2⟩

end H1

namespace ReusedConnection
variable {gzip : H1.GzipReader} {c c' : ReusedConnection} {x : ExchangeScript} {r : ReadFrom}

theorem exchange_step (h : (connectionSystem gzip).step c (.exchange x) = some c') :
    c' = c.exchange gzip x := by
  obtain ⟨-, h⟩ := Option.ite_none_right_eq_some.1 h
  exact (Option.some.inj h).symm

theorem taken_pos (gzip : H1.GzipReader) (h : c.input x ≠ []) : 0 < c.taken gzip x := by
  obtain ⟨-, hlt⟩ := H1.unreadBehind_suffix gzip x.ending ((c.input x).map Prod.snd)
  have hlt := hlt (by simpa using h)
  rw [List.length_map] at hlt
  unfold taken
  omega

def Stamped (c : ReusedConnection) : Prop := ∀ a ∈ c.unread, a.1 ≤ c.begun

theorem Stamped.input (h : c.Stamped) (x : ExchangeScript) :
    ∀ a ∈ c.input x, a.1 ≤ c.begun + 1 := by
  intro a ha
  rcases List.mem_append.1 ha with ha | ha
  · have := h a ha
    omega
  · obtain ⟨b, -, rfl⟩ := List.mem_map.1 ha
    exact le_refl _

theorem stamped_invariant (gzip : H1.GzipReader) :
    (connectionSystem gzip).Invariant System.Any Stamped where
  init := by
    rintro _ rfl a ha
    cases ha
  step := by
    intro c act c' hc _ h
    cases act with
    | arrive bytes =>
      cases h
      intro a ha
      rcases List.mem_append.1 ha with ha | ha
      · exact hc a ha
      · obtain ⟨b, -, rfl⟩ := List.mem_map.1 ha
        exact le_refl _
    | exchange x =>
      obtain rfl := exchange_step h
      intro a ha
      exact hc.input x a (List.mem_of_mem_drop ha)

theorem exchange_responses (gzip : H1.GzipReader) (c : ReusedConnection) (x : ExchangeScript) :
    (c.exchange gzip x).responses = c.responses ∨
      ∃ r : ReadFrom, (c.exchange gzip x).responses = c.responses ++ [r] ∧
        r.exchange = c.begun + 1 ∧ r.bytes = (c.input x).take (c.taken gzip x) := by
  unfold exchange
  dsimp only
  split
  · exact .inr ⟨_, rfl, rfl, rfl⟩
  · exact .inl rfl

theorem own_of_nothing_unread (hn : c.unread = []) (hk : r.exchange = c.begun + 1)
    (hb : r.bytes = (c.input x).take n) : r.Own := by
  intro a ha
  rw [hb] at ha
  have ha := List.mem_of_mem_take ha
  rw [input, hn, List.nil_append] at ha
  obtain ⟨b, -, rfl⟩ := List.mem_map.1 ha
  exact hk.symm

theorem nothing_unread_of_own (hc : c.Stamped) (hk : r.exchange = c.begun + 1)
    (hb : r.bytes = (c.input x).take (c.taken gzip x)) (ho : r.Own) : c.unread = [] := by
  rcases hu : c.unread with _ | ⟨a, unread⟩
  · rfl
  · have hin : c.input x = a :: (unread ++ x.incoming.map (c.begun + 1, ·)) := by
      rw [input, hu]
      rfl
    have hpos := taken_pos gzip (c := c) (x := x) (by rw [hin]; exact List.cons_ne_nil _ _)
    have hmem : a ∈ r.bytes := by
      obtain ⟨n, hn⟩ := Nat.exists_eq_add_of_lt hpos
      rw [hb, hn, hin, Nat.zero_add, List.take_succ_cons]
      exact List.mem_cons_self
    have hlate := ho a hmem
    have hearly := hc a (by rw [hu]; exact List.mem_cons_self)
    omega

def BeginsClean (c : ReusedConnection) : ConnectionAct → Prop
  | .arrive _ => True
  | .exchange _ => c.unread = []

theorem own_invariant (gzip : H1.GzipReader) :
    (connectionSystem gzip).Invariant BeginsClean (fun c => ∀ r ∈ c.responses, r.Own) where
  init := by
    rintro _ rfl r hr
    cases hr
  step := by
    intro c act c' hc hok h
    cases act with
    | arrive bytes =>
      cases h
      exact hc
    | exchange x =>
      obtain rfl := exchange_step h
      rcases exchange_responses gzip c x with he | ⟨r, he, hk, hb⟩
      · rw [he]
        exact hc
      · rw [he]
        exact forall_mem_append_one hc (own_of_nothing_unread hok hk hb)

end ReusedConnection

/-- On a connection on which every exchange begins with nothing waiting, every response is read from
what arrived after its own request began to be written. Any exchange that begins otherwise and reads
a response breaks this. -/
theorem responses_own_iff (gzip : H1.GzipReader) :
    (∀ c, (connectionSystem gzip).Reachable ReusedConnection.BeginsClean c →
      ∀ r ∈ c.responses, r.Own) ∧
    ∀ c x c' r, (connectionSystem gzip).Reachable System.Any c →
      (connectionSystem gzip).step c (.exchange x) = some c' →
      c'.responses = c.responses ++ [r] → (r.Own ↔ c.unread = []) := by
  refine ⟨fun c hr => (ReusedConnection.own_invariant gzip).reachable hr, ?_⟩
  intro c x c' r hr h hresp
  have hc := (ReusedConnection.stamped_invariant gzip).reachable hr
  obtain rfl := ReusedConnection.exchange_step h
  rcases ReusedConnection.exchange_responses gzip c x with he | ⟨r', he, hk, hb⟩
  · rw [hresp] at he
    simp at he
  · rw [hresp] at he
    obtain rfl : r = r' := by simpa using he
    constructor
    · exact ReusedConnection.nothing_unread_of_own hc hk hb
    · intro hn
      exact ReusedConnection.own_of_nothing_unread hn hk hb

namespace Sample

def exchangeWith (incoming : Bytes) : ExchangeScript :=
  { wire :=
      { target := lit "/v1/messages", authority := lit "api.repost.sh",
        authorization := lit "Bearer k", userAgent := lit "repost",
        idempotencyKey := lit "key", body := lit "\x7b\x7d" }
    incoming := incoming }

def notFoundReply : Bytes := lit "HTTP/1.1 404 Not Found\r\ncontent-length: 0\r\n\r\n"

def acceptedReply : Bytes := lit "HTTP/1.1 202 Accepted\r\ncontent-length: 0\r\n\r\n"

end Sample

instance : ∀ (c : ReusedConnection) (act : ConnectionAct), Decidable (c.BeginsClean act)
  | _, .arrive _ => .isTrue trivial
  | c, .exchange _ => inferInstanceAs (Decidable (c.unread = []))

theorem responses_own_twice :
    ∃ c c', (connectionSystem (fun _ => none)).exec ReusedConnection.BeginsClean {}
        [.exchange (Sample.exchangeWith Sample.notFoundReply)] = some c ∧
      (connectionSystem (fun _ => none)).step c
        (.exchange (Sample.exchangeWith Sample.acceptedReply)) = some c' ∧
      c'.responses.map (·.response.status) = [404, 202] ∧
      (∀ r ∈ c.responses, r.Own) ∧ ∃ r, c'.responses = c.responses ++ [r] ∧ r.Own := by
  let x := Sample.exchangeWith Sample.notFoundReply
  let y := Sample.exchangeWith Sample.acceptedReply
  let c := ReusedConnection.exchange (fun _ => none) {} x
  have hrun : (connectionSystem (fun _ => none)).exec ReusedConnection.BeginsClean {}
      [.exchange x] = some c := rfl
  have hany : (connectionSystem (fun _ => none)).exec System.Any {} [.exchange x] = some c := rfl
  have hstep : (connectionSystem (fun _ => none)).step c (.exchange y) =
      some (c.exchange (fun _ => none) y) := rfl
  obtain ⟨hclean, hiff⟩ := responses_own_iff (fun _ => none)
  have hfirst := hclean c (System.exec_reachable rfl hrun)
  refine ⟨c, _, hrun, hstep, by decide +kernel, hfirst, _, rfl, ?_⟩
  exact (hiff c y _ _ (System.exec_reachable rfl hany) hstep rfl).2 (by decide +kernel)

/-- Two responses in answer to the first request: the second request, to which the server has not
said a word, is answered by the surplus one. -/
theorem responses_not_own_on_surplus :
    ∃ c, (connectionSystem (fun _ => none)).exec System.Any {}
        [.exchange (Sample.exchangeWith (Sample.notFoundReply ++ Sample.acceptedReply)),
          .exchange (Sample.exchangeWith [])] = some c ∧
      c.responses.map (fun r => (r.exchange, r.response.status, r.bytes)) =
        [(1, 404, Sample.notFoundReply.map (1, ·)), (2, 202, Sample.acceptedReply.map (1, ·))] ∧
      ¬ ∀ r ∈ c.responses, r.Own := by
  refine ⟨_, rfl, by decide +kernel, ?_⟩
  intro h
  have hall : ∃ r ∈ (ReusedConnection.exchange (fun _ => none) (ReusedConnection.exchange
      (fun _ => none) {} (Sample.exchangeWith (Sample.notFoundReply ++ Sample.acceptedReply)))
      (Sample.exchangeWith [])).responses, ∃ a ∈ r.bytes, a.1 ≠ r.exchange := by
    decide +kernel
  obtain ⟨r, hr, a, ha, hne⟩ := hall
  exact hne (h r hr a ha)

end Repost
