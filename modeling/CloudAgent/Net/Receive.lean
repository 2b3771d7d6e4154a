import Mathlib.Data.List.Basic
import Mathlib.Data.List.Flatten
import Mathlib.Data.List.TakeWhile

/-! What the websocket does with received bytes. The service hands a text message over in one chunk or
in several, and the callback parses every chunk that it is given. -/
namespace CloudAgent.Net

/-- The parts of `websocket` that received values go to. `messageCb` tells whether a message callback
is set; without one the values wait in `rx_q_`, as text, for the rx thread. -/
structure Receiver (J : Type*) where
  messageCb : Bool
  rxQ : List J
  messages : List J
  deriving DecidableEq, Repr

/-- A text that ends at the first zero byte. -/
def cString (bytes : List UInt8) : List UInt8 := bytes.takeWhile (· ≠ 0)

theorem cString_of_notMem {bytes : List UInt8} (h : (0 : UInt8) ∉ bytes) : cString bytes = bytes := by
  apply List.takeWhile_eq_self_iff.mpr
  intro b hb
  have hne : b ≠ 0 := fun hz => h (hz ▸ hb)
  simpa using hne

namespace Receiver
variable {J : Type*} (parse : List UInt8 → Option J)

/-- `LWS_CALLBACK_CLIENT_RECEIVE`. `parse` is `json::parse`, which throws where it has no value. -/
def clientReceive (r : Receiver J) (chunk : List UInt8) : Option (Receiver J) :=
  (parse (cString chunk)).map fun msg =>
    if r.messageCb then { r with messages := r.messages ++ [msg] } else { r with rxQ := r.rxQ ++ [msg] }

/-- The callbacks of the service for some chunks; an exception ends them. -/
def clientReceiveAll (r : Receiver J) : List (List UInt8) → Option (Receiver J)
  | [] => some r
  | chunk :: chunks => (r.clientReceive parse chunk).bind fun r => r.clientReceiveAll chunks

/-- The values that were passed on so far. -/
def passedOn (r : Receiver J) : List J := if r.messageCb then r.messages else r.rxQ

/-- A text message with a value, and the chunks in which the service presents it. -/
structure TextMessage where
  chunks : List (List UInt8)
  value : J
  chunks_ne_nil : chunks ≠ []
  noNul : (0 : UInt8) ∉ chunks.flatten
  parsed : parse chunks.flatten = some value

variable {parse} {r r' : Receiver J} {chunk : List UInt8}

theorem clientReceive_eq_some (h : r.clientReceive parse chunk = some r') :
    ∃ msg, parse (cString chunk) = some msg ∧ r'.messageCb = r.messageCb ∧
      r'.passedOn = r.passedOn ++ [msg] := by
  obtain ⟨msg, hp, rfl⟩ := Option.map_eq_some_iff.mp h
  refine ⟨msg, hp, ?_⟩
  cases hm : r.messageCb <;> simp [passedOn, hm]

/-- Every chunk that is handled adds one value. -/
theorem length_passedOn_clientReceiveAll {chunks : List (List UInt8)}
    (h : r.clientReceiveAll parse chunks = some r') :
    r'.passedOn.length = r.passedOn.length + chunks.length := by
  induction chunks generalizing r with
  | nil =>
    obtain rfl := Option.some.inj h
    rfl
  | cons chunk chunks ih =>
    obtain ⟨s, hs, h⟩ := Option.bind_eq_some_iff.mp h
    obtain ⟨msg, -, -, hpassed⟩ := clientReceive_eq_some hs
    have hrest := ih h
    simp only [hpassed, List.length_append, List.length_singleton] at hrest
    rw [hrest, List.length_cons]
    omega

theorem TextMessage.one_le_length (m : TextMessage parse) : 1 ≤ m.chunks.length :=
  List.length_pos_iff.mpr m.chunks_ne_nil

/-- Messages in more chunks than there are messages: some message was split. -/
theorem length_le_length_flatMap (ms : List (TextMessage parse)) :
    ms.length ≤ (ms.flatMap TextMessage.chunks).length := by
  induction ms with
  | nil => simp
  | cons m ms ih =>
    have hm := m.one_le_length
    simp only [List.flatMap_cons, List.length_append, List.length_cons]
    omega

theorem length_flatMap_eq_iff (ms : List (TextMessage parse)) :
    (ms.flatMap TextMessage.chunks).length = ms.length ↔ ∀ m ∈ ms, m.chunks.length = 1 := by
  induction ms with
  | nil => simp
  | cons m ms ih =>
    have hm := m.one_le_length
    have hms := length_le_length_flatMap ms
    simp only [List.flatMap_cons, List.length_append, List.length_cons, List.forall_mem_cons, ← ih]
    omega

/-- Messages that arrive in one chunk each are passed on as they are. -/
theorem clientReceiveAll_unsplit (ms : List (TextMessage parse)) (h : ∀ m ∈ ms, m.chunks.length = 1)
    (r : Receiver J) :
    ∃ r', r.clientReceiveAll parse (ms.flatMap TextMessage.chunks) = some r' ∧
      r'.passedOn = r.passedOn ++ ms.map TextMessage.value := by
  induction ms generalizing r with
  | nil => exact ⟨r, rfl, by simp⟩
  | cons m ms ih =>
    obtain ⟨hm, hms⟩ := List.forall_mem_cons.mp h
    obtain ⟨chunk, hchunk⟩ := List.length_eq_one_iff.mp hm
    have hparse : parse (cString chunk) = some m.value := by
      have hflat : m.chunks.flatten = chunk := by simp [hchunk]
      rw [cString_of_notMem (hflat ▸ m.noNul), ← hflat]
      exact m.parsed
    have hstep : ∃ s, r.clientReceive parse chunk = some s := by
      rw [clientReceive, hparse]
      exact ⟨_, rfl⟩
    obtain ⟨s, hs⟩ := hstep
    obtain ⟨msg, hmsg, -, hpassed⟩ := clientReceive_eq_some hs
    obtain rfl : m.value = msg := Option.some.inj (hparse.symm.trans hmsg)
    obtain ⟨r', hr', hall⟩ := ih hms s
    refine ⟨r', ?_, ?_⟩
    · rw [List.flatMap_cons, hchunk]
      exact Option.bind_eq_some_iff.mpr ⟨s, hs, hr'⟩
    · rw [hall, hpassed, List.map_cons, List.append_assoc, List.singleton_append]

/-- Whatever the parser is: the messages are passed on once each, in order and without an exception, if
and only if the service presents each of them in one chunk. -/
theorem messages_passed_on_iff (r : Receiver J) (ms : List (TextMessage parse)) :
    (∃ r', r.clientReceiveAll parse (ms.flatMap TextMessage.chunks) = some r' ∧
        r'.passedOn = r.passedOn ++ ms.map TextMessage.value) ↔
      ∀ m ∈ ms, m.chunks.length = 1 := by
  constructor
  · rintro ⟨r', hr', hall⟩
    have hlen := length_passedOn_clientReceiveAll hr'
    rw [hall, List.length_append, List.length_map] at hlen
    apply (length_flatMap_eq_iff ms).mp
    omega
  · exact fun h => clientReceiveAll_unsplit ms h r

/-- A parser that knows the empty object. -/
def parseEmptyObject (text : List UInt8) : Option Unit := if text = [123, 125] then some () else none

/-- The empty object in two chunks: the first one is no JSON text. -/
def splitObject : TextMessage parseEmptyObject := ⟨[[123], [125]], (), by decide, by decide, by decide⟩

theorem splitObject_throws :
    ¬ ∃ r', (⟨false, [], []⟩ : Receiver Unit).clientReceiveAll parseEmptyObject
        ([splitObject].flatMap TextMessage.chunks) = some r' ∧
      r'.passedOn = (⟨false, [], []⟩ : Receiver Unit).passedOn ++ [splitObject].map TextMessage.value := by
  rintro ⟨r', hr', -⟩
  have hnone : (⟨false, [], []⟩ : Receiver Unit).clientReceiveAll parseEmptyObject
      ([splitObject].flatMap TextMessage.chunks) = none := by decide
  rw [hnone] at hr'
  cases hr'

end Receiver
end CloudAgent.Net
