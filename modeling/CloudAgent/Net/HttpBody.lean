import CloudAgent.Lib.Transition
import Mathlib.Data.List.TakeWhile

/-! The body of an HTTP request: the `Content-Length` that is announced for it, and the chunks that it is written in. -/
namespace CloudAgent.Net
open Transition

/-- What of a request decides how its body is sent; strings are lists of bytes. -/
structure HttpRequest where
  body : List Char
  multipart : Bool
  formField : List Char
  uploadFilename : List Char
  contentType : List Char
  maxUploadSpeed : ℕ
  deriving DecidableEq

namespace HttpBody

/-- `HTTP_SEND_BUFFER_SIZE`. -/
def sendBufferSize : ℕ := 32 * 1024

/-- What `libwebsockets` adds: `LWS_PRE`, and the boundary that it makes for a connection. -/
structure Lws where
  pre : ℕ
  pre_lt : pre + 1 < sendBufferSize
  boundary : List Char

/-- How many bytes there are between `start` and `end`. -/
def Lws.room (l : Lws) : ℕ := sendBufferSize - l.pre - 1

/-- What `%s` prints of a string. -/
def cStr (s : List Char) : List Char := s.takeWhile (· ≠ '\x00')

/-- `lws_snprintf` at `p`, with `buf` between the start of the buffer and `p`: what is there after `p` has moved. A text
that does not fit is cut, and a null is its last byte. -/
def put (room : ℕ) (buf text : List Char) : List Char :=
  let size := room - buf.length
  if size = 0 then buf
  else if size ≤ text.length then buf ++ (text.take (size - 1) ++ ['\x00'])
  else buf ++ text

/-- The texts that `lws_client_http_multipart` prints for a part. -/
def partTexts (l : Lws) (subsequentMimePart : Bool) (r : HttpRequest) : List (List Char) :=
  (if subsequentMimePart then ["\r\n".toList] else []) ++
    ["--".toList ++ l.boundary ++ "\r\nContent-Disposition: form-data; name=\"".toList ++ cStr r.formField ++
        "\"".toList,
      "; filename=\"".toList ++ cStr r.uploadFilename ++ "\"".toList,
      "\r\nContent-Type: ".toList ++ cStr r.contentType, "\r\n\r\n".toList]

/-- The text that it prints without a name. -/
def closingText (l : Lws) : List Char := "\r\n--".toList ++ l.boundary ++ "--\r\n".toList

/-- `lws_client_http_multipart` for the file of the request: the buffer, and whether `p` is at its end. -/
def multipartPart (l : Lws) (subsequentMimePart : Bool) (r : HttpRequest) (buf : List Char) : List Char × Bool :=
  let buf := (partTexts l subsequentMimePart r).foldl (put l.room) buf
  (buf, buf.length = l.room)

/-- `lws_client_http_multipart` without a name. -/
def multipartEnd (l : Lws) (buf : List Char) : List Char := put l.room buf (closingText l)

/-- A request while it is sent: `requested` and `scheduled` tell whether a callback for writing, or the timer for one,
is to come, and `writes` what was given to `lws_write`, with whether it was the final write. -/
structure Sending where
  contentLength : ℕ
  sendPos : ℕ
  subsequentMimePart : Bool
  requested : Bool
  scheduled : Bool
  closed : Bool
  writes : List (List Char × Bool)
  deriving DecidableEq

/-- `LWS_CALLBACK_CLIENT_APPEND_HANDSHAKE_HEADER` on a new connection, for a request with a body; `none`: the callback
returns -1. -/
def appendHandshakeHeader (l : Lws) (r : HttpRequest) : Option Sending :=
  if r.multipart then
    let (p, full) := multipartPart l false r []
    if full then none
    else
      let multipartPrefixPostfixLen := (multipartEnd l p).length
      some ⟨multipartPrefixPostfixLen + r.body.length, 0, false, true, false, false, []⟩
  else some ⟨r.body.length, 0, false, true, false, false, []⟩

/-- `upload_speed` is above `max_upload_speed`, `duration` seconds after the start. -/
def limited (r : HttpRequest) (s : Sending) (duration : ℕ) : Bool :=
  0 < r.maxUploadSpeed && r.maxUploadSpeed < s.sendPos / (if duration = 0 then 1 else duration)

/-- `LWS_CALLBACK_CLIENT_HTTP_WRITEABLE`; `accepted` tells whether `lws_write` takes all that it is given. -/
def clientHttpWriteable (l : Lws) (r : HttpRequest) (s : Sending) (duration : ℕ) (accepted : Bool) : Sending :=
  if limited r s duration then { s with requested := false, scheduled := true }
  else
    let first := r.multipart && s.sendPos = 0
    let (p, full) := if first then multipartPart l s.subsequentMimePart r [] else ([], false)
    let subsequentMimePart := s.subsequentMimePart || first
    if full then { s with requested := false, subsequentMimePart := subsequentMimePart, closed := true }
    else
      let processingLen := min (r.body.length - s.sendPos) (l.room - p.length)
      let p := p ++ (r.body.drop s.sendPos).take processingLen
      let sendPos := s.sendPos + processingLen
      let final := !(sendPos < r.body.length)
      let p := if final && r.multipart then multipartEnd l p else p
      { s with
        sendPos := sendPos
        subsequentMimePart := subsequentMimePart
        requested := accepted && !final
        closed := !accepted
        writes := s.writes ++ [(p, final)] }

/-- `_on_writable_delayed`. -/
def onWritableDelayed (s : Sending) : Sending := { s with requested := true, scheduled := false }

inductive Event
  | writeable (duration : ℕ) (accepted : Bool)
  | delayed
  deriving DecidableEq

/-- A connection is called back for writing where that was requested, until a callback returns -1. -/
def step (l : Lws) (r : HttpRequest) (s : Sending) : Event → Option Sending
  | .writeable duration accepted =>
    if s.requested && !s.closed then some (clientHttpWriteable l r s duration accepted) else none
  | .delayed => if s.scheduled && !s.closed then some (onWritableDelayed s) else none

/-! ### Texts in the buffer -/

section Put
variable {room : ℕ} {buf text : List Char} {texts : List (List Char)}

theorem put_of_lt (h : buf.length + text.length < room) : put room buf text = buf ++ text := by
  rw [put]
  rw [if_neg (by omega), if_neg (by omega)]

/-- A text that leaves no room fills the buffer. -/
theorem length_put_of_ge (hbuf : buf.length ≤ room) (h : room ≤ buf.length + text.length) :
    (put room buf text).length = room := by
  rw [put]
  split
  · omega
  · rw [if_pos (by omega), List.length_append, List.length_append, List.length_take, List.length_singleton]
    omega

theorem length_put_le (hbuf : buf.length ≤ room) : (put room buf text).length ≤ room := by
  obtain h | h := Nat.lt_or_ge (buf.length + text.length) room
  · rw [put_of_lt h, List.length_append]
    exact h.le
  · exact (length_put_of_ge hbuf h).le

theorem foldl_put_of_lt (h : buf.length + texts.flatten.length < room) :
    texts.foldl (put room) buf = buf ++ texts.flatten := by
  induction texts generalizing buf with
  | nil => simp
  | cons t texts ih =>
    rw [List.flatten_cons, List.length_append] at h
    have ht : buf.length + t.length < room := by omega
    rw [List.foldl_cons, put_of_lt ht, ih (by rw [List.length_append]; omega), List.flatten_cons, List.append_assoc]

theorem length_foldl_put_of_ge (hbuf : buf.length ≤ room) (h : room ≤ buf.length + texts.flatten.length) :
    (texts.foldl (put room) buf).length = room := by
  induction texts generalizing buf with
  | nil =>
    rw [List.flatten_nil, List.length_nil] at h
    exact Nat.le_antisymm hbuf h
  | cons t texts ih =>
    rw [List.flatten_cons, List.length_append] at h
    refine ih (length_put_le hbuf) ?_
    obtain ht | ht := Nat.lt_or_ge (buf.length + t.length) room
    · rw [put_of_lt ht, List.length_append]
      omega
    · rw [length_put_of_ge hbuf ht]
      omega

/-- A text that does not end with a null is whole in the buffer only where there is room for one behind it. -/
theorem put_eq_append_iff (hbuf : buf.length ≤ room) (htext : text ≠ []) (hlast : ∀ h, text.getLast h ≠ '\x00') :
    put room buf text = buf ++ text ↔ buf.length + text.length < room := by
  refine ⟨fun h => ?_, put_of_lt⟩
  by_contra hge
  have hlen := length_put_of_ge hbuf (Nat.not_lt.mp hge)
  rw [h, List.length_append] at hlen
  have hpos := List.length_pos_of_ne_nil htext
  rw [put] at h
  rw [if_neg (by omega), if_pos (by omega)] at h
  have hcut := List.append_cancel_left h
  refine hlast htext ?_
  rw [List.getLast_congr htext (by simp) hcut.symm]
  exact List.getLast_concat

end Put

/-! ### What is to be sent -/

/-- What comes before the body. -/
def header (l : Lws) (r : HttpRequest) : List Char := if r.multipart then (partTexts l false r).flatten else []

/-- What comes after it. -/
def footer (l : Lws) (r : HttpRequest) : List Char := if r.multipart then closingText l else []

def total (l : Lws) (r : HttpRequest) : List Char := header l r ++ r.body ++ footer l r

/-- How much of the buffer the last chunk fills, without what comes after the body. -/
def lastChunk (l : Lws) (r : HttpRequest) : ℕ := ((header l r).length + r.body.length - 1) % l.room + 1

/-- What was given to `lws_write`. -/
def Sending.sent (s : Sending) : List Char := s.writes.flatMap (·.1)

/-- All that a request promises at any time: the length that was announced is the right one, what has been written is
the beginning of the whole and fits the buffer, the write that completes it is the final one and the last, and the
connection does not wait for anything before that. -/
structure Intact (l : Lws) (r : HttpRequest) (s : Sending) : Prop where
  announced : s.contentLength = (total l r).length
  sent : s.sent <+: total l r
  fits : ∀ w ∈ s.writes, w.1.length ≤ l.room
  notFinal : ∀ w ∈ s.writes.dropLast, w.2 = false
  final : (∃ w ∈ s.writes.getLast?, w.2 = true) ↔ s.sent = total l r
  complete : s.requested = false → s.scheduled = false → s.closed = false → s.sent = total l r

/-- The request is sent, and intact at all times. -/
def SentIntact (l : Lws) (r : HttpRequest) : Prop :=
  ∃ s, appendHandshakeHeader l r = some s ∧ ∀ as t, exec (step l r) s as = some t → Intact l r t

/-- A multipart request fits where the texts around the body fit into one buffer, and the closing one behind the last
chunk of the body, with a null. -/
def Fits (l : Lws) (r : HttpRequest) : Prop :=
  r.multipart = true → (header l r).length + (footer l r).length ≤ l.room ∧
    lastChunk l r + (footer l r).length < l.room

variable {l : Lws} {r : HttpRequest} {s t : Sending}

theorem Lws.room_pos (l : Lws) : 0 < l.room := by
  have h := l.pre_lt
  rw [room]
  omega

theorem multipartPart_of_lt (hm : r.multipart = true) (h : (header l r).length < l.room) :
    multipartPart l false r [] = (header l r, false) := by
  have hflat : (partTexts l false r).flatten = header l r := by rw [header, if_pos hm]
  rw [← hflat] at h
  have hput : (partTexts l false r).foldl (put l.room) [] = header l r := by
    rw [foldl_put_of_lt (by simpa using h), List.nil_append, hflat]
  rw [multipartPart, hput]
  rw [hflat] at h
  simp [h.ne]

theorem multipartPart_of_ge (hm : r.multipart = true) (h : l.room ≤ (header l r).length) :
    (multipartPart l false r []).2 = true := by
  have hflat : (partTexts l false r).flatten = header l r := by rw [header, if_pos hm]
  rw [← hflat] at h
  have hput : ((partTexts l false r).foldl (put l.room) []).length = l.room :=
    length_foldl_put_of_ge (Nat.zero_le _) (by simpa using h)
  simp [multipartPart, hput]

theorem closingText_getLast (l : Lws) (h : closingText l ≠ []) : (closingText l).getLast h ≠ '\x00' := by
  have hends : closingText l = ("\r\n--".toList ++ l.boundary ++ "--\r".toList) ++ ['\n'] := by
    have hend : "--\r\n".toList = "--\r".toList ++ ['\n'] := rfl
    exact (congrArg _ hend).trans (List.append_assoc _ _ _).symm
  rw [List.getLast_congr h (by simp) hends, List.getLast_concat]
  decide

theorem closingText_ne_nil (l : Lws) : closingText l ≠ [] := List.append_ne_nil_of_right_ne_nil _ (by decide)

theorem length_total (l : Lws) (r : HttpRequest) :
    (total l r).length = (header l r).length + r.body.length + (footer l r).length := by
  rw [total, List.length_append, List.length_append]

theorem lastChunk_le (l : Lws) (r : HttpRequest) : lastChunk l r ≤ l.room := Nat.mod_lt _ l.room_pos

/-- The handshake goes through exactly if the text before the body leaves room. -/
theorem appendHandshakeHeader_eq_some (h : appendHandshakeHeader l r = some s) :
    (header l r).length < l.room ∧ ∃ n, s = ⟨n, 0, false, true, false, false, []⟩ ∧
      (n = (total l r).length ↔ (r.multipart = true → (header l r).length + (footer l r).length ≤ l.room)) := by
  rw [appendHandshakeHeader] at h
  cases hm : r.multipart with
  | false =>
    rw [hm] at h
    obtain rfl := Option.some.inj h
    have hlen : (header l r).length = 0 := by simp [header, hm]
    refine ⟨by have := l.room_pos; omega, _, rfl, ?_⟩
    simp [total, header, footer, hm]
  | true =>
    have hlt : (header l r).length < l.room := by
      by_contra hge
      have hfull := multipartPart_of_ge hm (Nat.not_lt.mp hge)
      rw [hm, if_pos rfl] at h
      dsimp only at h
      rw [if_pos hfull] at h
      cases h
    have hfooter : footer l r = closingText l := by rw [footer, if_pos hm]
    rw [hm, if_pos rfl, multipartPart_of_lt hm hlt] at h
    obtain rfl := Option.some.inj h
    refine ⟨hlt, _, rfl, ?_⟩
    rw [length_total, multipartEnd, ← hfooter, forall_prop_of_true rfl]
    obtain hroom | hroom := Nat.lt_or_ge ((header l r).length + (footer l r).length) l.room
    · rw [put_of_lt hroom, List.length_append]
      omega
    · rw [length_put_of_ge hlt.le hroom]
      omega

theorem appendHandshakeHeader_of_lt (h : (header l r).length < l.room) : ∃ s, appendHandshakeHeader l r = some s := by
  rw [appendHandshakeHeader]
  cases hm : r.multipart with
  | false => exact ⟨_, rfl⟩
  | true =>
    rw [multipartPart_of_lt hm h]
    exact ⟨_, rfl⟩

/-! ### A connection that sends -/

/-- Before the final write. -/
structure Going (l : Lws) (r : HttpRequest) (s : Sending) : Prop where
  pos : s.sendPos < r.body.length
  subsequent : s.sendPos = 0 → s.subsequentMimePart = false
  sent : s.sent = if s.sendPos = 0 then [] else header l r ++ r.body.take s.sendPos
  full : s.sendPos ≠ 0 → l.room ∣ (header l r).length + s.sendPos
  writes : ∀ w ∈ s.writes, w.1.length ≤ l.room ∧ w.2 = false
  waits : s.closed = true ∨ s.requested = true ∨ s.scheduled = true
  apart : s.requested = true → s.scheduled = false

/-- After the final write: the last chunk `q`, and what there was room for after it. -/
def Ended (l : Lws) (r : HttpRequest) (s : Sending) : Prop :=
  s.requested = false ∧ s.scheduled = false ∧ ∃ ws q, (∀ w ∈ ws, w.1.length ≤ l.room ∧ w.2 = false) ∧
    s.writes = ws ++ [(if r.multipart then multipartEnd l q else q, true)] ∧
    ws.flatMap (·.1) ++ q = header l r ++ r.body ∧ q.length = lastChunk l r

/-- What a callback puts into the buffer before its part of the body. -/
def before (l : Lws) (r : HttpRequest) (s : Sending) : List Char := if s.sendPos = 0 then header l r else []

/-- How much of the body it sends. -/
def processingLen (l : Lws) (r : HttpRequest) (s : Sending) : ℕ :=
  min (r.body.length - s.sendPos) (l.room - (before l r s).length)

def chunk (l : Lws) (r : HttpRequest) (s : Sending) : List Char :=
  before l r s ++ (r.body.drop s.sendPos).take (processingLen l r s)

theorem length_before_lt (hroom : (header l r).length < l.room) : (before l r s).length < l.room := by
  rw [before]
  split
  · exact hroom
  · exact l.room_pos

/-- What a callback does that is not postponed. -/
theorem Going.writeable_eq (h : Going l r s) (hroom : (header l r).length < l.room) {duration : ℕ} {accepted : Bool}
    (hlim : limited r s duration = false) (final : Bool)
    (hfinal : final = !(s.sendPos + processingLen l r s < r.body.length)) :
    clientHttpWriteable l r s duration accepted =
      ⟨s.contentLength, s.sendPos + processingLen l r s, s.subsequentMimePart || (r.multipart && s.sendPos = 0),
        accepted && !final, s.scheduled, !accepted,
        s.writes ++ [(if final && r.multipart then multipartEnd l (chunk l r s) else chunk l r s, final)]⟩ := by
  have hpart : (if r.multipart && s.sendPos = 0 then multipartPart l s.subsequentMimePart r [] else ([], false)) =
      (before l r s, false) := by
    rw [before]
    by_cases hpos : s.sendPos = 0
    · cases hm : r.multipart with
      | false => simp [header, hm]
      | true => simp [hpos, h.subsequent hpos, multipartPart_of_lt hm hroom]
    · simp [hpos]
  rw [clientHttpWriteable, hlim]
  simp only [hpart]
  rw [hfinal]
  rfl

theorem length_chunk (l : Lws) (r : HttpRequest) (s : Sending) :
    (chunk l r s).length = (before l r s).length + processingLen l r s := by
  have hle : processingLen l r s ≤ r.body.length - s.sendPos := Nat.min_le_left _ _
  rw [chunk, List.length_append, List.length_take, List.length_drop, Nat.min_eq_left hle]

theorem Going.sent_append_chunk (h : Going l r s) :
    s.sent ++ chunk l r s = header l r ++ r.body.take (s.sendPos + processingLen l r s) := by
  rw [chunk, h.sent, before]
  split
  · rename_i hpos
    rw [hpos]
    simp
  · rw [List.nil_append, List.append_assoc, List.take_add]

theorem Going.processingLen_pos (h : Going l r s) (hroom : (header l r).length < l.room) : 0 < processingLen l r s := by
  have hpos := h.pos
  have hlt := length_before_lt (s := s) hroom
  rw [processingLen]
  omega

/-- A chunk that is not the last fills the buffer. -/
theorem Going.length_chunk_of_lt (hroom : (header l r).length < l.room)
    (hlt : s.sendPos + processingLen l r s < r.body.length) : (chunk l r s).length = l.room := by
  have hbefore := length_before_lt (s := s) hroom
  rw [length_chunk, processingLen] at *
  omega

theorem Going.length_chunk_of_ge (h : Going l r s) (hroom : (header l r).length < l.room)
    (hge : ¬ s.sendPos + processingLen l r s < r.body.length) : (chunk l r s).length = lastChunk l r := by
  have hpos := h.pos
  have hlt := length_before_lt (s := s) hroom
  have hlen := length_chunk l r s
  have hproc : processingLen l r s = min (r.body.length - s.sendPos) (l.room - (before l r s).length) := rfl
  by_cases hzero : s.sendPos = 0
  · have hbefore : (before l r s).length = (header l r).length := by rw [before, if_pos hzero]
    have hmod : ((header l r).length + r.body.length - 1) % l.room = (header l r).length + r.body.length - 1 :=
      Nat.mod_eq_of_lt (by omega)
    rw [lastChunk, hmod]
    omega
  · have hbefore : (before l r s).length = 0 := by rw [before, if_neg hzero, List.length_nil]
    obtain ⟨k, hk⟩ := h.full hzero
    have hsplit : (header l r).length + r.body.length - 1 = r.body.length - s.sendPos - 1 + l.room * k := by omega
    rw [lastChunk, hsplit, Nat.add_mul_mod_self_left, Nat.mod_eq_of_lt (by omega)]
    omega

/-- A write that is not the final one. -/
theorem Going.next (h : Going l r s) (hroom : (header l r).length < l.room) (accepted : Bool)
    (hlt : s.sendPos + processingLen l r s < r.body.length) (hreq : s.requested = true) :
    Going l r ⟨s.contentLength, s.sendPos + processingLen l r s, s.subsequentMimePart || (r.multipart && s.sendPos = 0),
      accepted, s.scheduled, !accepted, s.writes ++ [(chunk l r s, false)]⟩ := by
  have hpos := h.processingLen_pos hroom
  have hlen := length_chunk_of_lt hroom hlt
  have hne : s.sendPos + processingLen l r s ≠ 0 := by omega
  refine ⟨hlt, fun hzero => absurd hzero hne, ?_, fun _ => ?_, fun w hw => ?_, ?_, fun _ => h.apart hreq⟩
  · rw [if_neg hne, ← h.sent_append_chunk]
    simp [Sending.sent]
  · rw [length_chunk, before] at hlen
    dsimp only
    by_cases hzero : s.sendPos = 0
    · rw [if_pos hzero] at hlen
      have hfirst : (header l r).length + (s.sendPos + processingLen l r s) = l.room := by
        rw [hzero, Nat.zero_add, hlen]
      exact hfirst ▸ Nat.dvd_refl _
    · rw [if_neg hzero, List.length_nil, Nat.zero_add] at hlen
      rw [hlen, ← Nat.add_assoc]
      exact Nat.dvd_add (h.full hzero) (Nat.dvd_refl _)
  · obtain hw | hw := List.mem_append.mp hw
    · exact h.writes w hw
    · obtain rfl := List.mem_singleton.mp hw
      exact ⟨hlen.le, rfl⟩
  · cases accepted with
    | false => exact .inl rfl
    | true => exact .inr (.inl rfl)

/-- The final write. -/
theorem Going.ended (h : Going l r s) (hroom : (header l r).length < l.room) (accepted : Bool)
    (hge : ¬ s.sendPos + processingLen l r s < r.body.length) (hreq : s.requested = true) :
    Ended l r ⟨s.contentLength, s.sendPos + processingLen l r s, s.subsequentMimePart || (r.multipart && s.sendPos = 0),
      false, s.scheduled, !accepted,
      s.writes ++ [(if r.multipart then multipartEnd l (chunk l r s) else chunk l r s, true)]⟩ := by
  refine ⟨rfl, h.apart hreq, s.writes, chunk l r s, h.writes, rfl, ?_, h.length_chunk_of_ge hroom hge⟩
  have hsent := h.sent_append_chunk
  rw [List.take_of_length_le (Nat.not_lt.mp hge)] at hsent
  exact hsent

/-- What a callback leads to before the final write. -/
theorem Going.step (h : Going l r s) (hroom : (header l r).length < l.room) {e : Event} (hs : step l r s e = some t) :
    t.contentLength = s.contentLength ∧ (Going l r t ∨ Ended l r t) := by
  cases e with
  | writeable duration accepted =>
    rw [HttpBody.step] at hs
    split at hs
    · rename_i hen
      obtain ⟨hreq, -⟩ : s.requested = true ∧ _ := by simpa using hen
      obtain rfl := Option.some.inj hs
      cases hlim : limited r s duration with
      | true =>
        rw [clientHttpWriteable, if_pos hlim]
        exact ⟨rfl, .inl ⟨h.pos, h.subsequent, h.sent, h.full, h.writes, .inr (.inr rfl), fun hno => by cases hno⟩⟩
      | false =>
        by_cases hlt : s.sendPos + processingLen l r s < r.body.length
        · rw [h.writeable_eq hroom hlim false (by simp [hlt])]
          refine ⟨rfl, .inl ?_⟩
          have hnext := h.next hroom accepted hlt hreq
          simpa using hnext
        · rw [h.writeable_eq hroom hlim true (by simp [hlt])]
          refine ⟨rfl, .inr ?_⟩
          have hend := h.ended hroom accepted hlt hreq
          simpa using hend
    · cases hs
  | delayed =>
    rw [HttpBody.step] at hs
    split at hs
    · obtain rfl := Option.some.inj hs
      exact ⟨rfl, .inl ⟨h.pos, h.subsequent, h.sent, h.full, h.writes, .inr (.inl rfl), fun _ => rfl⟩⟩
    · cases hs

/-- Nothing happens after the final write. -/
theorem Ended.step (h : Ended l r s) (e : Event) : step l r s e = none := by
  obtain ⟨hreq, hsch, -⟩ := h
  cases e <;> simp [HttpBody.step, hreq, hsch]

/-! ### Whole runs -/

theorem start_going (hbody : r.body ≠ []) (n : ℕ) : Going l r ⟨n, 0, false, true, false, false, []⟩ :=
  ⟨List.length_pos_of_ne_nil hbody, fun _ => rfl, rfl, fun h => absurd rfl h, fun _ hw => absurd hw List.not_mem_nil,
    .inr (.inl rfl), fun _ => rfl⟩

/-- A connection is before its final write or after it, and keeps what it announced. -/
theorem going_or_ended (hbody : r.body ≠ []) (hroom : (header l r).length < l.room) {n : ℕ} {as : List Event}
    (he : exec (step l r) ⟨n, 0, false, true, false, false, []⟩ as = some t) :
    t.contentLength = n ∧ (Going l r t ∨ Ended l r t) := by
  refine run_invariant (P := fun u : Sending => u.contentLength = n ∧ (Going l r u ∨ Ended l r u)) ?_
    ⟨rfl, .inl (start_going hbody n)⟩ he
  rintro u e v ⟨hn, hu | hu⟩ hs
  · obtain ⟨hv, hv'⟩ := hu.step hroom hs
    exact ⟨hv.trans hn, hv'⟩
  · rw [hu.step e] at hs
    cases hs

/-- A callback late enough sends a chunk. -/
theorem Going.sends (h : Going l r s) (hroom : (header l r).length < l.room) (hreq : s.requested = true)
    (hopen : s.closed = false) :
    ∃ t, HttpBody.step l r s (.writeable (s.sendPos + 1) true) = some t ∧ t.closed = false ∧
      (Ended l r t ∨ Going l r t ∧ s.sendPos < t.sendPos ∧ t.requested = true) := by
  have hlim : limited r s (s.sendPos + 1) = false := by
    have hzero : s.sendPos / (s.sendPos + 1) = 0 := Nat.div_eq_of_lt (Nat.lt_succ_self _)
    simp [limited, hzero]
  have hpos := h.processingLen_pos hroom
  rw [HttpBody.step, hreq, hopen]
  refine ⟨_, rfl, ?_⟩
  by_cases hlt : s.sendPos + processingLen l r s < r.body.length
  · rw [h.writeable_eq hroom hlim false (by simp [hlt])]
    have hnext := h.next hroom true hlt hreq
    exact ⟨rfl, .inr ⟨by simpa using hnext, Nat.lt_add_of_pos_right hpos, rfl⟩⟩
  · rw [h.writeable_eq hroom hlim true (by simp [hlt])]
    have hend := h.ended hroom true hlt hreq
    exact ⟨rfl, .inl (by simpa using hend)⟩

/-- As long as nothing fails the final write is reached. -/
theorem Going.reaches_end (h : Going l r s) (hroom : (header l r).length < l.room) (hreq : s.requested = true)
    (hopen : s.closed = false) : ∃ as t, exec (HttpBody.step l r) s as = some t ∧ Ended l r t := by
  induction hn : r.body.length - s.sendPos using Nat.strong_induction_on generalizing s with
  | _ n ih =>
    have hpos := h.pos
    obtain ⟨t, ht, hopen', hend | ⟨hgoing, hlt, hreq'⟩⟩ := h.sends hroom hreq hopen
    · exact ⟨[_], t, exec_cons_eq_some.mpr ⟨t, ht, rfl⟩, hend⟩
    · obtain ⟨as, u, hu, hend⟩ := ih (r.body.length - t.sendPos) (by omega) hgoing hreq' hopen' rfl
      exact ⟨_ :: as, u, exec_cons_eq_some.mpr ⟨t, ht, hu⟩, hend⟩

theorem Going.intact (h : Going l r s) (hn : s.contentLength = (total l r).length) : Intact l r s := by
  have hpos := h.pos
  have hprefix : s.sent <+: header l r ++ r.body.take s.sendPos := by
    rw [h.sent]
    split
    · exact List.nil_prefix
    · exact List.prefix_rfl
  have hshort : s.sent ≠ total l r := by
    intro heq
    have hle := hprefix.length_le
    rw [heq, length_total, List.length_append, List.length_take] at hle
    omega
  have hnone : ¬ ∃ w ∈ s.writes.getLast?, w.2 = true := by
    rintro ⟨w, hw, hfinal⟩
    have hno := (h.writes w (List.mem_of_getLast? hw)).2
    rw [hfinal] at hno
    cases hno
  refine ⟨hn, ?_, fun w hw => (h.writes w hw).1, fun w hw => (h.writes w (List.dropLast_subset _ hw)).2,
    iff_of_false hnone hshort, fun hreq hsch hclosed => ?_⟩
  · refine hprefix.trans ?_
    rw [total, List.append_assoc]
    exact (List.prefix_append_right_inj _).mpr ((List.take_prefix _ _).trans (List.prefix_append _ _))
  · obtain hc | hr | hs := h.waits
    · rw [hclosed] at hc
      cases hc
    · rw [hreq] at hr
      cases hr
    · rw [hsch] at hs
      cases hs

/-- Whether the final write completes what was to be sent. -/
theorem Ended.sent_eq_iff (h : Ended l r s) :
    s.sent = total l r ↔ (r.multipart = true → lastChunk l r + (footer l r).length < l.room) := by
  obtain ⟨-, -, ws, q, -, hw, hall, hq⟩ := h
  have hle : q.length ≤ l.room := hq ▸ lastChunk_le l r
  rw [Sending.sent, hw, List.flatMap_append, total, ← hall]
  cases hm : r.multipart with
  | false => simp [footer, hm]
  | true =>
    have hfooter : footer l r = closingText l := by rw [footer, if_pos hm]
    rw [hfooter, ← hq]
    simp only [if_true, List.flatMap_singleton, List.append_assoc, List.append_cancel_left_eq, forall_true_left]
    exact put_eq_append_iff hle (closingText_ne_nil l) (closingText_getLast l)

theorem Ended.intact_iff (h : Ended l r s) (hn : s.contentLength = (total l r).length) :
    Intact l r s ↔ s.sent = total l r := by
  obtain ⟨hreq, hsch, ws, q, hws, hw, -, hq⟩ := h
  have hle : q.length ≤ l.room := hq ▸ lastChunk_le l r
  have hlast : ∃ w ∈ s.writes.getLast?, w.2 = true := ⟨_, by rw [hw]; exact List.getLast?_concat, rfl⟩
  refine ⟨fun hi => hi.final.mp hlast, fun hsent => ?_⟩
  refine ⟨hn, ?_, fun w hmem => ?_, fun w hmem => ?_, ?_, fun _ _ _ => hsent⟩
  · exact hsent ▸ List.prefix_rfl
  · rw [hw] at hmem
    obtain hmem | hmem := List.mem_append.mp hmem
    · exact (hws w hmem).1
    · obtain rfl := List.mem_singleton.mp hmem
      dsimp only
      split
      · exact length_put_le hle
      · exact hle
  · rw [hw, List.dropLast_concat] at hmem
    exact (hws w hmem).2
  · exact iff_of_true hlast hsent

theorem SentIntact.fits (h : SentIntact l r) (hbody : r.body ≠ []) : Fits l r := by
  obtain ⟨s, hs, hintact⟩ := h
  obtain ⟨hroom, n, rfl, hn⟩ := appendHandshakeHeader_eq_some hs
  have hannounced : n = (total l r).length := (hintact [] _ rfl).announced
  obtain ⟨as, t, ht, hend⟩ := (start_going hbody n).reaches_end hroom rfl rfl
  have hall := hintact as t ht
  have hsent := (hend.intact_iff hall.announced).mp hall
  exact fun hm => ⟨hn.mp hannounced hm, hend.sent_eq_iff.mp hsent hm⟩

/-- A request with a body is sent intact exactly if it fits. -/
theorem sentIntact_iff (l : Lws) (hbody : r.body ≠ []) : SentIntact l r ↔ Fits l r := by
  refine ⟨fun h => h.fits hbody, fun hfits => ?_⟩
  have hroom : (header l r).length < l.room := by
    cases hm : r.multipart with
    | false =>
      have hpos := l.room_pos
      simpa [header, hm] using hpos
    | true =>
      have hlen := (hfits hm).1
      have hfooter : footer l r = closingText l := by rw [footer, if_pos hm]
      have hpos := List.length_pos_of_ne_nil (closingText_ne_nil l)
      rw [hfooter] at hlen
      omega
  obtain ⟨s, hs⟩ := appendHandshakeHeader_of_lt hroom
  obtain ⟨-, n, rfl, hn⟩ := appendHandshakeHeader_eq_some hs
  have hannounced : n = (total l r).length := hn.mpr fun hm => (hfits hm).1
  refine ⟨_, hs, fun as t ht => ?_⟩
  obtain ⟨hcl, hgoing | hend⟩ := going_or_ended hbody hroom ht
  · exact hgoing.intact (hcl.trans hannounced)
  · exact (hend.intact_iff (hcl.trans hannounced)).mpr (hend.sent_eq_iff.mpr fun hm => (hfits hm).2)

/-- The upload of a file with this many bytes, on a connection with a boundary of 15 bytes. -/
def upload (n : ℕ) : HttpRequest :=
  ⟨List.replicate n 'x', true, "file".toList, "file".toList, "application/octet-stream".toList, 0⟩

def connection : Lws := ⟨16, by decide, "0123456789abcde".toList⟩

theorem sentIntact_upload : SentIntact connection (upload 2) :=
  (sentIntact_iff connection (by decide)).mpr fun _ => by decide +kernel

/-- The body fills the buffer behind the text before it. -/
theorem not_sentIntact_upload : ¬ SentIntact connection (upload 32628) := by
  intro h
  have hlen : (upload 32628).body.length = 32628 := List.length_replicate
  have hbody : (upload 32628).body ≠ [] := List.ne_nil_of_length_pos (by omega)
  have hheader : (header connection (upload 32628)).length = 123 := by decide +kernel
  have hroom : connection.room = 32751 := rfl
  obtain ⟨-, hlast⟩ := h.fits hbody rfl
  rw [lastChunk, hheader, hlen, hroom] at hlast
  omega

end HttpBody
end CloudAgent.Net
