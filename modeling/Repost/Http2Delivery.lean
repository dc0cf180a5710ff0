import Repost.Http1Lane
import Repost.Http2Exchange

namespace Repost.H2
open GoText
set_option autoImplicit true

theorem readerStep_perform {s s' : Session} (h : s.readerStep gunzip rest op choice = some s') :
    s'.shared = (s.shared.perform gunzip op).1 := by
  unfold Session.readerStep at h
  split at h
  all_goals (try cases h)
  all_goals (try rfl)
  all_goals
    split at h
    · cases h
      rfl
    · cases h

namespace Shared
variable {s : Shared} {id : Nat} {st : Stream}

theorem object_updateStream (s : Shared) (id : Nat) (f : Stream → Stream)
    (hf : ∀ st, (f st).id = st.id) : (s.updateStream id f).object id = (s.object id).map f := by
  rw [object_update rfl hf, if_pos rfl]

/-- A stream that still waits for its response or a part of it. -/
structure Open (s : Shared) (id : Nat) (st : Stream) : Prop where
  object : s.object id = some st
  listed : id ∈ s.streams
  unfinished : st.finished = false

theorem Open.lookup (h : s.Open id st) : s.lookup id = some st := by
  unfold Shared.lookup
  rw [if_pos (List.contains_iff_mem.2 h.listed), h.object]

theorem Open.update (h : s.Open id st) (f : Stream → Stream)
    (hid : ∀ st, (f st).id = st.id) (hf : ∀ st, (f st).finished = st.finished) :
    (s.updateStream id f).Open id (f st) := by
  refine ⟨?_, h.listed, ?_⟩
  · rw [object_updateStream s id f hid, h.object]
    rfl
  · rw [hf, h.unfinished]

structure Done (s : Shared) (id : Nat) (st : Stream) : Prop where
  object : s.object id = some st
  finished : st.finished = true

theorem Open.finish (h : s.Open id st) (response : Response) (err : Option SessionError) :
    (s.finishStream id response err).Done id
      { st with response := response, err := err, finished := true } := by
  refine ⟨?_, rfl⟩
  have hfinish : s.finishStream id response err = s.finishLocked id response err := by
    unfold finishStream
    rw [h.lookup]
    dsimp only
    rw [if_neg (by rw [h.unfinished]; exact Bool.false_ne_true)]
  have hobject := object_updateStream { s with streams := s.streams.erase id } id
    (fun st => { st with response := response, err := err, finished := true }) fun _ => rfl
  rw [hfinish]
  refine hobject.trans ?_
  show (s.object id).map _ = _
  rw [h.object]
  rfl

theorem Done.lookup (h : s.Done id st) : s.lookup id = none ∨ s.lookup id = some st := by
  unfold Shared.lookup
  rw [h.object]
  split
  · exact .inr rfl
  · exact .inl rfl

theorem Done.finishStream (h : s.Done id st) (response : Response) (err : Option SessionError) :
    s.finishStream id response err = s := by
  unfold Shared.finishStream
  rcases h.lookup with hl | hl
  · rw [hl]
  · rw [hl]
    exact if_pos h.finished

theorem Done.handleData (h : s.Done id st) (gunzip : GunzipLimited) (data : Bytes)
    (ended : Bool) : s.handleData gunzip id data ended = (s, []) := by
  unfold Shared.handleData
  rcases h.lookup with hl | hl
  · rw [hl]
  · rw [hl]
    exact if_pos h.finished

theorem Done.receive (h : s.Done id st) (gunzip : GunzipLimited) (payload : Bytes)
    (padding : Nat) (ended : Bool) : s.receive gunzip (.data id payload padding ended) = s := by
  unfold Shared.receive Incoming.ops
  dsimp only
  split_ifs
  · simp [settle, perform, h.handleData]
  · simp [settle, perform, h.finishStream]
  · simp [settle, perform, h.handleData]

end Shared

def finalized (gunzip : GunzipLimited) (response : Response) : Response × Option SessionError :=
  match finalizeResponse gunzip response with
  | .ok response => (response, none)
  | .error e => ({}, some e)

namespace Shared
variable {s : Shared} {id : Nat} {st : Stream} (gunzip : GunzipLimited)

theorem perform_finishOp (s : Shared) (id : Nat) (response : Response) :
    (s.perform gunzip (finishOp gunzip id response)).1 =
      s.finishStream id (finalized gunzip response).1 (finalized gunzip response).2 := by
  unfold finishOp finalized
  cases finalizeResponse gunzip response <;> rfl

theorem receive_chunk (s : Shared) (id : Nat) (padding : Nat)
    (ended : Bool) (hl : ¬payload.length > 2 ^ 32 - 1) :
    s.receive gunzip (.data id payload padding ended) =
      (s.handleData gunzip id payload ended).2.foldl (fun s op => (s.perform gunzip op).1)
        (s.handleData gunzip id payload ended).1 := by
  unfold receive Incoming.ops
  dsimp only
  rw [if_neg hl]
  split_ifs <;> rfl

theorem receive_data (s : Shared) (id : Nat) (padding : Nat) (ended : Bool)
    (hl : payload.length ≤ Limits.bodyBytes) :
    s.receive gunzip (.data id payload padding ended) =
      (s.handleData gunzip id payload ended).2.foldl (fun s op => (s.perform gunzip op).1)
        (s.handleData gunzip id payload ended).1 := by
  apply receive_chunk
  unfold Limits.bodyBytes at hl
  omega

structure Filling (s : Shared) (id : Nat) (st : Stream) (held : Response) (length : Nat) : Prop
    extends s.Open id st where
  headers : st.headersReceived = true
  response : st.response = held
  expected : st.expectedLength = some length

section
variable {held : Response} {length : Nat} {payload : Bytes}

theorem Filling.handleData (h : s.Filling id st held length) (gunzip : GunzipLimited)
    (ended : Bool) (hle : (held.body ++ payload).length ≤ length)
    (hmax : length ≤ Limits.bodyBytes)
    (hend : ended = true → (held.body ++ payload).length = length) :
    s.handleData gunzip id payload ended =
      (s.updateStream id fun st =>
          { st with response := { held with body := held.body ++ payload } },
        if ended then [finishOp gunzip id { held with body := held.body ++ payload }] else []) := by
  have hopen := h.toOpen
  unfold Shared.handleData
  rw [hopen.lookup]
  simp only [hopen.unfinished, h.headers, h.response, h.expected, Bool.not_true, Bool.false_eq_true,
    if_false, Option.any_some]
  rw [if_neg (by rw [← List.length_append]; omega), if_neg (by simp only [decide_eq_true_eq]; omega)]
  cases ended with
  | false => rfl
  | true => simp only [hend rfl, bne_self_eq_false, Bool.false_eq_true, if_true, if_false]

theorem Filling.updated (h : s.Filling id st held length) (response : Response) :
    (s.updateStream id fun st => { st with response := response }).Filling id
      { st with response := response } response length := by
  have hupdated := h.toOpen.update (fun st => { st with response := response }) (fun _ => rfl)
    fun _ => rfl
  exact ⟨hupdated, h.headers, rfl, h.expected⟩

theorem Filling.more (h : s.Filling id st held length) (gunzip : GunzipLimited) (padding : Nat)
    (hle : (held.body ++ payload).length ≤ length) (hmax : length ≤ Limits.bodyBytes) :
    (s.receive gunzip (.data id payload padding false)).Filling id
      { st with response := { held with body := held.body ++ payload } }
      { held with body := held.body ++ payload } length := by
  have hpayload : payload.length ≤ Limits.bodyBytes := by
    rw [List.length_append] at hle
    omega
  rw [receive_data gunzip s id padding false hpayload, h.handleData gunzip false hle hmax nofun]
  exact h.updated _

theorem Filling.last (h : s.Filling id st held length) (gunzip : GunzipLimited) (padding : Nat)
    (hle : (held.body ++ payload).length = length) (hmax : length ≤ Limits.bodyBytes) :
    (s.receive gunzip (.data id payload padding true)).Done id
      { st with
        response := (finalized gunzip { held with body := held.body ++ payload }).1
        err := (finalized gunzip { held with body := held.body ++ payload }).2
        finished := true } := by
  have hpayload : payload.length ≤ Limits.bodyBytes := by
    rw [List.length_append] at hle
    omega
  rw [receive_data gunzip s id padding true hpayload,
    h.handleData gunzip true (le_of_eq hle) hmax fun _ => hle]
  simp only [if_true, List.foldl_cons, List.foldl_nil, perform_finishOp]
  exact (h.updated _).toOpen.finish _ _

end

end Shared

/-- The DATA frames of a body, the last of which ends the stream; each chunk has its padding. -/
def dataFrames (id : Nat) : List (Bytes × Nat) → List Incoming
  | [] => []
  | [chunk] => [.data id chunk.1 chunk.2 true]
  | chunk :: chunks => .data id chunk.1 chunk.2 false :: dataFrames id chunks

def statusField (status : Nat) : HeaderField :=
  { name := lit ":status", value := statusDigits status }

namespace Shared
variable {s : Shared} {id : Nat} {st : Stream}

theorem Filling.all {held : Response} {length : Nat} (h : s.Filling id st held length)
    (gunzip : GunzipLimited) (chunks : List (Bytes × Nat)) (hne : chunks ≠ [])
    (hlen : (held.body ++ (chunks.map Prod.fst).flatten).length = length)
    (hmax : length ≤ Limits.bodyBytes) :
    ∃ st', (s.receiveAll gunzip (dataFrames id chunks)).Done id st' ∧
      (st'.response, st'.err) =
        finalized gunzip { held with body := held.body ++ (chunks.map Prod.fst).flatten } ∧
      st'.observed = st.observed := by
  induction chunks generalizing s st held with
  | nil => exact absurd rfl hne
  | cons chunk chunks ih =>
    cases chunks with
    | nil =>
      simp only [List.map_cons, List.map_nil, List.flatten_cons, List.flatten_nil,
        List.append_nil] at hlen ⊢
      exact ⟨_, h.last gunzip chunk.2 hlen hmax, rfl, rfl⟩
    | cons next chunks =>
      rw [List.map_cons, List.flatten_cons, ← List.append_assoc] at hlen ⊢
      have hle : (held.body ++ chunk.1).length ≤ length := by
        rw [List.length_append] at hlen
        omega
      obtain ⟨st', hdone, hresult, hobserved⟩ :=
        ih (h.more gunzip chunk.2 hle hmax) (List.cons_ne_nil _ _) hlen
      exact ⟨st', hdone, hresult, hobserved⟩

theorem Done.receiveAll (h : s.Done id st) (gunzip : GunzipLimited) (chunks : List (Bytes × Nat)) :
    s.receiveAll gunzip (dataFrames id chunks) = s := by
  induction chunks with
  | nil => rfl
  | cons chunk chunks ih =>
    cases chunks with
    | nil => exact h.receive gunzip chunk.1 chunk.2 true
    | cons next chunks =>
      refine Eq.trans ?_ ih
      show (s.receive gunzip _).receiveAll gunzip _ = _
      rw [h.receive]

/-- A stream that waits for the header block of its response. -/
structure Fresh (s : Shared) (id : Nat) (st : Stream) : Prop extends s.Open id st where
  headers : st.headersReceived = false
  observed : st.observed = none

section
variable {frame : MetaHeaders}

theorem receive_headers (gunzip : GunzipLimited) (s : Shared)
    (hd : decodeResponseHeaders frame = .ok (response, expected)) :
    s.receive gunzip (.headers frame) =
      (s.handleHeaders gunzip frame response expected).2.foldl
        (fun s op => (s.perform gunzip op).1)
        (s.handleHeaders gunzip frame response expected).1 := by
  unfold receive Incoming.ops
  dsimp only
  rw [hd]
  rfl

theorem Fresh.refuse (h : s.Fresh id st) (gunzip : GunzipLimited) (hid : frame.streamID = id)
    (hd : decodeResponseHeaders frame = .error e) :
    (s.receive gunzip (.headers frame)).Done id
      { st with response := {}, err := some e, finished := true } := by
  have hdone := h.toOpen.finish {} (some e)
  have hreceive : s.receive gunzip (.headers frame) = s.finishStream id {} (some e) := by
    unfold receive Incoming.ops
    dsimp only
    rw [hd, hid]
    rfl
  rw [hreceive]
  exact hdone

theorem Fresh.handleHeaders (h : s.Fresh id st) (gunzip : GunzipLimited)
    (hid : frame.streamID = id) (response : Response) (expected : Option Nat)
    (hs : 200 ≤ response.status)
    (hend : frame.streamEnded = true → expected = some 0) :
    s.handleHeaders gunzip frame response expected =
      (s.updateStream id fun st =>
          { st with headersReceived := true, response := response, expectedLength := expected },
        .observe id response.status response.headers ::
          if frame.streamEnded then [finishOp gunzip id response] else []) := by
  have hopen := h.toOpen
  unfold Shared.handleHeaders
  dsimp only
  rw [hid, hopen.lookup]
  dsimp only
  rw [if_neg (by rw [hopen.unfinished]; exact Bool.false_ne_true),
    if_neg (by simp only [Bool.and_eq_true, decide_eq_true_eq]; omega),
    if_neg (by rw [h.headers]; exact Bool.false_ne_true)]
  cases hended : frame.streamEnded with
  | false => rfl
  | true =>
    rw [hend hended]
    rfl

def answered (st : Stream) (response : Response) (expected : Option Nat) : Stream :=
  { st with
    headersReceived := true, response := response, expectedLength := expected
    observed := some (response.status, response.headers) }

theorem Fresh.answer (h : s.Fresh id st) (gunzip : GunzipLimited) (hid : frame.streamID = id)
    (hd : decodeResponseHeaders frame = .ok (response, some length))
    (hs : 200 ≤ response.status) (hend : frame.streamEnded = false) :
    (s.receive gunzip (.headers frame)).Filling id (answered st response (some length)) response
      length := by
  rw [receive_headers gunzip s hd,
    h.handleHeaders gunzip hid response (some length) hs (by rw [hend]; exact nofun), hend]
  have hupdated := h.toOpen.update (fun st => { st with
    headersReceived := true, response := response, expectedLength := some length })
    (fun _ => rfl) fun _ => rfl
  have hobserved := hupdated.update (fun st => { st with
    observed := some (response.status, response.headers) }) (fun _ => rfl) fun _ => rfl
  exact ⟨hobserved, rfl, rfl, rfl⟩

theorem Fresh.answerAll (h : s.Fresh id st) (gunzip : GunzipLimited) (hid : frame.streamID = id)
    (hd : decodeResponseHeaders frame = .ok (response, some 0))
    (hs : 200 ≤ response.status) (hend : frame.streamEnded = true) :
    (s.receive gunzip (.headers frame)).Done id
      { answered st response (some 0) with
        response := (finalized gunzip response).1
        err := (finalized gunzip response).2
        finished := true } := by
  rw [receive_headers gunzip s hd,
    h.handleHeaders gunzip hid response (some 0) hs (fun _ => rfl), hend]
  have hupdated := h.toOpen.update (fun st => { st with
    headersReceived := true, response := response, expectedLength := some 0 })
    (fun _ => rfl) fun _ => rfl
  have hobserved := hupdated.update (fun st => { st with
    observed := some (response.status, response.headers) }) (fun _ => rfl) fun _ => rfl
  have hdone := hobserved.finish (finalized gunzip response).1 (finalized gunzip response).2
  simp only [if_true, List.foldl_cons, List.foldl_nil, perform_finishOp]
  exact hdone

end

end Shared

end Repost.H2
