import CloudAgent.Lib.StdString
import Mathlib.Data.List.TakeWhile

/-! `Uri::Parse`, which cuts a URL into its parts. -/
namespace CloudAgent.Cloud
open StdString

/-- The parts of a URL. The source keeps the texts; the flags say which of the two separators have been recognised. -/
structure Uri where
  queryString : List Int8 := []
  path : List Int8 := []
  protocol : List Int8 := []
  host : List Int8 := []
  port : List Int8 := []
  protocolSeparator : Bool := false
  portSeparator : Bool := false
  deriving DecidableEq

namespace Uri

/-- The C string that begins at a character, up to a null. -/
def cString (s : List Int8) : List Int8 := s.takeWhile (· ≠ 0)

/-- "://" and at least one more character. -/
def atProtocolEnd (s : List Int8) : Bool :=
  let prot := cString s
  decide (3 < prot.length) && decide (prot.take 3 = bytesOf "://")

/-- `Uri::Parse`. `none`: it searches or copies an inverted range. -/
def parse (uri : List Int8) : Option Uri :=
  if uri.length = 0 then some {}
  else do
    let uriEnd := uri.length
    let queryStart ← findIn uri 0 uriEnd (byteOf '?')
    let colon ← findIn uri 0 uriEnd (byteOf ':')
    let hasProtocol := decide (colon ≠ uriEnd) && atProtocolEnd (uri.drop colon)
    let protocol ← (if hasProtocol then range uri 0 colon else some [])
    let protocolEnd := if hasProtocol then colon + 3 else 0
    let pathStart ← findIn uri protocolEnd uriEnd (byteOf '/')
    let authorityEnd := if pathStart ≠ uriEnd then pathStart else queryStart
    let hostEnd ← findIn uri protocolEnd authorityEnd (byteOf ':')
    let host ← range uri protocolEnd hostEnd
    let hasPort := decide (hostEnd ≠ uriEnd) && decide (uri[hostEnd]? = some (byteOf ':'))
    let port ← (if hasPort then range uri (hostEnd + 1) authorityEnd else some [])
    let path ← (if pathStart ≠ uriEnd then range uri pathStart queryStart else some [])
    let queryString ← (if queryStart ≠ uriEnd then range uri queryStart uriEnd else some [])
    return { queryString, path, protocol, host, port, protocolSeparator := hasProtocol, portSeparator := hasPort }

/-- The parts, put together again. -/
def text (r : Uri) : List Int8 :=
  r.protocol ++ ((if r.protocolSeparator then bytesOf "://" else []) ++ (r.host ++
    ((if r.portSeparator then byteOf ':' :: r.port else []) ++ (r.path ++ r.queryString))))

/-- The parts of `u` without a loss, each with the characters that it may have. -/
structure PartsOf (r : Uri) (u : List Int8) : Prop where
  text : r.text = u
  path : r.path = [] ∨ r.path.head? = some (byteOf '/')
  host : byteOf '/' ∉ r.host ∧ byteOf '?' ∉ r.host ∧ byteOf ':' ∉ r.host

/-- `u` begins with a protocol, and a text that is not empty, also for C, follows. -/
def HasProtocol (u protocol rest : List Int8) : Prop :=
  u = protocol ++ (bytesOf "://" ++ rest) ∧ byteOf ':' ∉ protocol ∧ ∃ c ∈ rest.head?, c ≠ 0

/-- No '?' stands in front of the first '/'. -/
def PathBeforeQuery (u : List Int8) : Prop :=
  ∀ front behind, u = front ++ byteOf '/' :: behind → byteOf '/' ∉ front → byteOf '?' ∉ front

/-- The separators stand in the order in which they are expected. -/
def Ordered (u : List Int8) : Prop :=
  (∀ protocol rest, HasProtocol u protocol rest → byteOf '?' ∉ protocol ∧ PathBeforeQuery rest) ∧
    ((¬ ∃ protocol rest, HasProtocol u protocol rest) → PathBeforeQuery u)

variable {u : List Int8} {r : Uri}

theorem atProtocolEnd_iff (s : List Int8) :
    atProtocolEnd s = true ↔ ∃ rest, s = bytesOf "://" ++ rest ∧ ∃ c ∈ rest.head?, c ≠ 0 := by
  rw [atProtocolEnd, Bool.and_eq_true, decide_eq_true_iff, decide_eq_true_iff]
  constructor
  · rintro ⟨hlen, htake⟩
    obtain ⟨tail, htail⟩ := List.takeWhile_prefix (l := s) (· ≠ 0)
    have hsplit := List.take_append_drop 3 (cString s)
    rw [htake] at hsplit
    have hdrop : ((cString s).drop 3).length = (cString s).length - 3 := List.length_drop
    obtain ⟨c, w, hw⟩ := List.exists_cons_of_length_pos (l := (cString s).drop 3) (by omega)
    have hc : c ∈ cString s := by
      rw [← hsplit, hw]
      simp
    have hs : cString s ++ tail = s := htail
    refine ⟨c :: (w ++ tail), ?_, c, rfl, ?_⟩
    · rw [← hs, ← hsplit, hw, List.append_assoc, List.cons_append]
    · simpa using List.mem_takeWhile_imp hc
  · rintro ⟨rest, rfl, c, hc, hne⟩
    obtain ⟨w, rfl⟩ := List.head?_eq_some_iff.mp hc
    have hstring : cString (bytesOf "://" ++ c :: w) = bytesOf "://" ++ c :: cString w := by
      have hnull : ∀ d ∈ bytesOf "://", d ≠ 0 := by decide +kernel
      rw [cString, List.takeWhile_append_of_pos (by simpa using hnull), List.takeWhile_cons,
        if_pos (by simpa using hne), cString]
    rw [hstring]
    refine ⟨?_, rfl⟩
    rw [List.length_append, List.length_cons]
    have hthree : (bytesOf "://").length = 3 := rfl
    omega

/-- What is cut off in front of the host is the protocol with its separator. -/
theorem take_protocolEnd {k : ℕ} {hasProtocol : Bool} {protocol : List Int8}
    (hhas : hasProtocol = (decide (k ≠ u.length) && atProtocolEnd (u.drop k)))
    (hprotocol : (if hasProtocol then range u 0 k else some []) = some protocol) :
    (if hasProtocol then k + 3 else 0) ≤ u.length ∧
      u.take (if hasProtocol then k + 3 else 0) = protocol ++ if hasProtocol then bytesOf "://" else [] := by
  cases hasProtocol with
  | false =>
    obtain rfl := Option.some.inj hprotocol
    exact ⟨Nat.zero_le _, rfl⟩
  | true =>
    obtain ⟨-, hend⟩ := Bool.and_eq_true_iff.mp hhas.symm
    obtain ⟨rest, hrest, c, hc, -⟩ := (atProtocolEnd_iff _).mp hend
    obtain ⟨-, rfl⟩ := range_eq_some (s := u) (a := 0) (b := k) hprotocol
    have hlen := congrArg List.length hrest
    have hthree : (bytesOf "://").length = 3 := rfl
    rw [List.length_drop, List.length_append] at hlen
    refine ⟨by rw [if_pos rfl]; omega, ?_⟩
    rw [if_pos rfl, if_pos rfl, slice_zero, List.take_add, hrest]
    rfl

/-- The host and the port are what lies in front of the path or the query, which begin with another character than a
port does. -/
theorem slice_authority {start stop e : ℕ} {host port : List Int8} (hstop : stop ≤ u.length)
    (hcolon : u[stop]? ≠ some (byteOf ':')) (he : findIn u start stop (byteOf ':') = some e)
    (hhost : range u start e = some host)
    (hport : (if (decide (e ≠ u.length) && decide (u[e]? = some (byteOf ':'))) = true then range u (e + 1) stop
      else some []) = some port) :
    host ++ (if (decide (e ≠ u.length) && decide (u[e]? = some (byteOf ':'))) = true then byteOf ':' :: port else []) =
        slice u start stop ∧
      start ≤ stop ∧ host ⊆ slice u start stop ∧ byteOf ':' ∉ host := by
  obtain ⟨hse, hes, hfront, hat⟩ := findIn_eq_some hstop he
  obtain ⟨-, rfl⟩ := range_eq_some hhost
  refine ⟨?_, hse.trans hes, slice_subset (Nat.le_refl _) hes, hfront⟩
  obtain rfl | hat := hat
  · -- the host is all of it: there is no ':' at its end
    have hnone : ¬ (decide (e ≠ u.length) && decide (u[e]? = some (byteOf ':'))) = true := by
      rw [Bool.and_eq_true, decide_eq_true_iff, decide_eq_true_iff]
      exact fun h => hcolon h.2
    rw [if_neg hnone, List.append_nil]
  · obtain ⟨hlt, -⟩ := List.getElem?_eq_some_iff.mp hat
    have hsome : (decide (e ≠ u.length) && decide (u[e]? = some (byteOf ':'))) = true := by
      rw [Bool.and_eq_true, decide_eq_true_iff, decide_eq_true_iff]
      exact ⟨Nat.ne_of_lt hlt, hat⟩
    rw [if_pos hsome] at hport ⊢
    obtain ⟨hle, rfl⟩ := range_eq_some hport
    rw [← slice_eq_cons hat hle, slice_append hse hes]

/-- The path is what lies between the authority and the query. -/
theorem slice_path {start p q : ℕ} {path : List Int8} (hp : findIn u start u.length (byteOf '/') = some p)
    (hq : findIn u 0 u.length (byteOf '?') = some q)
    (hpath : (if p ≠ u.length then range u p q else some []) = some path) :
    path = slice u (if p ≠ u.length then p else q) q ∧ (if p ≠ u.length then p else q) ≤ q ∧
      u[if p ≠ u.length then p else q]? ≠ some (byteOf ':') ∧
      (p = u.length ∧ path = [] ∨ p ≠ u.length ∧ path.head? = some (byteOf '/')) := by
  obtain ⟨-, hqn, -, hqat⟩ := findIn_eq_some (Nat.le_refl _) hq
  obtain ⟨-, hpn, -, hpat⟩ := findIn_eq_some (Nat.le_refl _) hp
  by_cases hend : p = u.length
  · rw [if_neg (not_not.mpr hend)] at hpath
    obtain rfl := Option.some.inj hpath
    rw [if_neg (not_not.mpr hend), slice_self]
    refine ⟨rfl, Nat.le_refl _, ?_, .inl ⟨hend, rfl⟩⟩
    obtain rfl | hqat := hqat
    · rw [List.getElem?_eq_none (Nat.le_refl _)]
      exact nofun
    · rw [hqat]
      decide
  · have hat := hpat.resolve_left hend
    rw [if_pos hend] at hpath ⊢
    obtain ⟨hle, rfl⟩ := range_eq_some hpath
    have hlt : p < q := by
      apply Nat.lt_of_le_of_ne hle
      rintro rfl
      obtain hqn | hqat := hqat
      · exact hend hqn
      · rw [hat] at hqat
        exact absurd hqat (by decide)
    refine ⟨rfl, hle, ?_, .inr ⟨hend, ?_⟩⟩
    · rw [hat]
      decide
    · rw [slice_eq_cons hat hlt, List.head?_cons]

/-- Whatever is parsed without an inverted range is cut without a loss. -/
theorem partsOf_of_parse (h : parse u = some r) : r.PartsOf u := by
  rw [parse] at h
  split at h
  next hnil =>
    obtain rfl := List.length_eq_zero_iff.mp hnil
    obtain rfl := Option.some.inj h
    exact ⟨rfl, .inl rfl, by decide⟩
  next hpos =>
    simp only [Option.bind_eq_bind, Option.bind_eq_some_iff, Option.pure_def, Option.some.injEq] at h
    obtain ⟨q, hq, k, hk, protocol, hprotocol, p, hp, e, he, host, hhost, port, hport, path, hpath, query, hquery,
      rfl⟩ := h
    obtain ⟨hstart, htake⟩ := take_protocolEnd rfl hprotocol
    generalize (decide (k ≠ u.length) && atProtocolEnd (u.drop k)) = hasProtocol at *
    generalize (if hasProtocol = true then k + 3 else 0) = start at *
    obtain ⟨-, hqn, hqfront, -⟩ := findIn_eq_some (Nat.le_refl _) hq
    obtain ⟨-, hpn, hpfront, -⟩ := findIn_eq_some (Nat.le_refl _) hp
    obtain ⟨hpathEq, hstopq, hcolon, hhead⟩ := slice_path hp hq hpath
    have hstopp : (if p ≠ u.length then p else q) ≤ p := by
      split <;> omega
    generalize (if p ≠ u.length then p else q) = stop at *
    obtain ⟨hauthority, hle, hsub, hnocolon⟩ := slice_authority (hstopq.trans hqn) hcolon he hhost hport
    have hqueryEq : query = slice u q u.length := by
      by_cases hend : q = u.length
      · rw [if_neg (not_not.mpr hend)] at hquery
        rw [← Option.some.inj hquery, hend, slice_self]
      · rw [if_pos hend] at hquery
        exact (range_eq_some hquery).2
    refine ⟨?_, hhead.imp And.right And.right, fun hmem => ?_, fun hmem => ?_, hnocolon⟩
    · calc _ = slice u 0 start ++ (slice u start stop ++ (slice u stop q ++ slice u q u.length)) := by
            rw [Uri.text, slice_zero, htake, ← hauthority, ← hpathEq, ← hqueryEq]
            simp only [List.append_assoc]
        _ = u := by
            rw [slice_append hstopq hqn, slice_append hle (hstopq.trans hqn), slice_append (Nat.zero_le _) hstart,
              slice_zero, List.take_length]
    · exact hpfront (slice_subset (Nat.le_refl _) hstopp (hsub hmem))
    · exact hqfront (slice_subset (Nat.zero_le _) hstopq (hsub hmem))

theorem idxOf_append_cons {front behind : List Int8} {c : Int8} (h : c ∉ front) :
    (front ++ c :: behind).idxOf c = front.length := by
  rw [List.idxOf_append_of_notMem h, List.idxOf_cons_self, Nat.add_zero]

theorem pathBeforeQuery_iff (h : byteOf '/' ∈ u) : PathBeforeQuery u ↔ byteOf '?' ∉ u.take (u.idxOf (byteOf '/')) := by
  obtain ⟨front, behind, rfl, hfront⟩ := List.eq_append_cons_of_mem h
  rw [idxOf_append_cons hfront, List.take_left]
  refine ⟨fun hp => hp front behind rfl hfront, fun hquery front' behind' hsplit hfront' => ?_⟩
  have hlen := congrArg (List.idxOf (byteOf '/')) hsplit
  rw [idxOf_append_cons hfront, idxOf_append_cons hfront'] at hlen
  rwa [← (List.append_inj hsplit hlen).1]

theorem pathBeforeQuery_of_notMem (h : byteOf '/' ∉ u) : PathBeforeQuery u := by
  rintro front behind rfl
  simp at h

/-- The two ranges are not inverted exactly if no '?' stands in front of the host, or of a '/' behind the host's
start. -/
theorem ordered_positions {front tail : List Int8} (hu : u = front ++ tail) {p : ℕ}
    (hp : p = front.length + tail.idxOf (byteOf '/')) :
    (front.length ≤ (if p ≠ u.length then p else u.idxOf (byteOf '?')) ∧
      (if p ≠ u.length then p else u.idxOf (byteOf '?')) ≤ u.idxOf (byteOf '?')) ↔
    byteOf '?' ∉ front ∧ PathBeforeQuery tail := by
  have hlen : u.length = front.length + tail.length := by rw [hu, List.length_append]
  have hstart : front.length ≤ u.idxOf (byteOf '?') ↔ byteOf '?' ∉ front := by
    rw [le_idxOf_iff (by omega), hu, List.take_left]
  by_cases hslash : byteOf '/' ∈ tail
  · have hidx := List.idxOf_lt_length_of_mem hslash
    have htake : u.take p = front ++ tail.take (tail.idxOf (byteOf '/')) := by
      rw [hu, hp, List.take_length_add_append]
    rw [if_pos (by omega), le_idxOf_iff (by omega), htake, List.mem_append, not_or, pathBeforeQuery_iff hslash]
    exact and_iff_right (by omega)
  · have hidx := List.idxOf_eq_length hslash
    rw [if_neg (by omega), hstart]
    exact ⟨fun h => ⟨h.1, pathBeforeQuery_of_notMem hslash⟩, fun h => ⟨h.1, Nat.le_refl _⟩⟩

theorem hasProtocol_iff (u : List Int8) :
    (decide (u.idxOf (byteOf ':') ≠ u.length) && atProtocolEnd (u.drop (u.idxOf (byteOf ':')))) = true ↔
      ∃ protocol rest, HasProtocol u protocol rest := by
  rw [Bool.and_eq_true, decide_eq_true_iff, atProtocolEnd_iff]
  constructor
  · rintro ⟨-, rest, hrest, hc⟩
    refine ⟨u.take (u.idxOf (byteOf ':')), rest, ?_, notMem_take_idxOf u _, hc⟩
    rw [← hrest, List.take_append_drop]
  · rintro ⟨protocol, rest, hu, hprotocol, hc⟩
    have hidx : u.idxOf (byteOf ':') = protocol.length := by
      rw [hu]
      exact idxOf_append_cons hprotocol
    have hlen := congrArg List.length hu
    have hthree : (bytesOf "://").length = 3 := rfl
    rw [List.length_append, List.length_append] at hlen
    rw [hidx]
    exact ⟨by omega, rest, by rw [hu, List.drop_left], hc⟩

/-- Where the host starts. -/
def hostStart (u : List Int8) : ℕ :=
  if decide (u.idxOf (byteOf ':') ≠ u.length) && atProtocolEnd (u.drop (u.idxOf (byteOf ':'))) then
    u.idxOf (byteOf ':') + 3
  else 0

theorem hostStart_of_hasProtocol {protocol rest : List Int8} (h : HasProtocol u protocol rest) :
    hostStart u = (protocol ++ bytesOf "://").length := by
  have hidx : u.idxOf (byteOf ':') = protocol.length := by
    rw [h.1]
    exact idxOf_append_cons h.2.1
  rw [hostStart, if_pos ((hasProtocol_iff u).mpr ⟨protocol, rest, h⟩), hidx, List.length_append]
  rfl

theorem hostStart_of_not (h : ¬ ∃ protocol rest, HasProtocol u protocol rest) : hostStart u = 0 :=
  if_neg fun hhas => h ((hasProtocol_iff u).mp hhas)

theorem ordered_iff {p : ℕ} (hp : p = hostStart u + (u.drop (hostStart u)).idxOf (byteOf '/')) :
    Ordered u ↔ hostStart u ≤ (if p ≠ u.length then p else u.idxOf (byteOf '?')) ∧
      (if p ≠ u.length then p else u.idxOf (byteOf '?')) ≤ u.idxOf (byteOf '?') := by
  by_cases hhas : ∃ protocol rest, HasProtocol u protocol rest
  · obtain ⟨protocol, rest, h⟩ := hhas
    have hsplit : u = (protocol ++ bytesOf "://") ++ rest := by rw [List.append_assoc]; exact h.1
    have hdrop : u.drop (hostStart u) = rest := by
      rw [hostStart_of_hasProtocol h]
      nth_rewrite 1 [hsplit]
      exact List.drop_left
    rw [hdrop, hostStart_of_hasProtocol h] at hp
    rw [hostStart_of_hasProtocol h, ordered_positions hsplit hp]
    have hnone : byteOf '?' ∉ bytesOf "://" := by decide
    have hmem : byteOf '?' ∉ protocol ++ bytesOf "://" ↔ byteOf '?' ∉ protocol := by
      rw [List.mem_append, not_or]
      exact and_iff_left hnone
    rw [hmem]
    constructor
    · exact fun ho => ho.1 protocol rest h
    · intro ho
      refine ⟨fun protocol' rest' h' => ?_, fun hno => absurd ⟨protocol, rest, h⟩ hno⟩
      have hlen : protocol.length = protocol'.length := by
        have h1 := hostStart_of_hasProtocol h
        rw [hostStart_of_hasProtocol h', List.length_append, List.length_append] at h1
        omega
      obtain ⟨rfl, htail⟩ := List.append_inj (h.1.symm.trans h'.1) hlen
      rwa [← List.append_cancel_left htail]
  · rw [hostStart_of_not hhas, List.drop_zero] at hp
    rw [hostStart_of_not hhas]
    refine Iff.trans ?_ (ordered_positions (show u = [] ++ u from rfl) hp).symm
    constructor
    · exact fun ho => ⟨List.not_mem_nil, ho.2 hhas⟩
    · exact fun ho => ⟨fun protocol rest h => absurd ⟨protocol, rest, h⟩ hhas, fun _ => ho.2⟩

theorem findIn_whole (u : List Int8) (c : Int8) : findIn u 0 u.length c = some (u.idxOf c) := by
  rw [findIn_of_le (Nat.zero_le _), slice_length, List.drop_zero, Nat.zero_add]

theorem hostStart_le (u : List Int8) : hostStart u ≤ u.length := by
  by_cases hhas : ∃ protocol rest, HasProtocol u protocol rest
  · obtain ⟨protocol, rest, h⟩ := hhas
    have hlen := congrArg List.length h.1
    rw [← List.append_assoc, List.length_append, ← hostStart_of_hasProtocol h] at hlen
    omega
  · rw [hostStart_of_not hhas]
    exact Nat.zero_le _

theorem findIn_slash (u : List Int8) : findIn u (hostStart u) u.length (byteOf '/') =
    some (hostStart u + (u.drop (hostStart u)).idxOf (byteOf '/')) := by
  rw [findIn_of_le (hostStart_le u), slice_length]

theorem ordered_nil : Ordered [] := by
  refine ⟨fun protocol rest h => ?_, fun _ => pathBeforeQuery_of_notMem List.not_mem_nil⟩
  have hlen := congrArg List.length h.1
  have hthree : (bytesOf "://").length = 3 := rfl
  rw [List.length_append, List.length_append, List.length_nil] at hlen
  omega

theorem ordered_of_parse (h : parse u = some r) : Ordered u := by
  rw [parse] at h
  split at h
  next hnil =>
    obtain rfl := List.length_eq_zero_iff.mp hnil
    exact ordered_nil
  next hpos =>
    simp only [Option.bind_eq_bind, Option.bind_eq_some_iff, Option.pure_def, Option.some.injEq] at h
    obtain ⟨q, hq, k, hk, -, -, p, hp, e, he, -, -, -, -, path, hpath, -, -, -⟩ := h
    obtain rfl := Option.some.inj ((findIn_whole u _).symm.trans hk)
    obtain ⟨-, hstopq, -, -⟩ := slice_path hp hq hpath
    obtain rfl := Option.some.inj ((findIn_whole u _).symm.trans hq)
    have hp' := Option.some.inj (hp.symm.trans (findIn_slash u))
    obtain ⟨hse, hes, -, -⟩ := findIn_eq_some (hstopq.trans List.idxOf_le_length) he
    exact (ordered_iff hp').mpr ⟨hse.trans hes, hstopq⟩

/-- There is a path exactly if a '/' stands behind the protocol. -/
theorem path_eq_nil_iff (h : parse u = some r) : r.path = [] ↔ byteOf '/' ∉ u.drop (hostStart u) := by
  rw [parse] at h
  split at h
  next hnil =>
    obtain rfl := List.length_eq_zero_iff.mp hnil
    obtain rfl := Option.some.inj h
    simp
  next hpos =>
    simp only [Option.bind_eq_bind, Option.bind_eq_some_iff, Option.pure_def, Option.some.injEq] at h
    obtain ⟨q, hq, k, hk, -, -, p, hp, -, -, -, -, -, -, path, hpath, -, -, rfl⟩ := h
    obtain rfl := Option.some.inj ((findIn_whole u _).symm.trans hk)
    have hp' := Option.some.inj (hp.symm.trans (findIn_slash u))
    have hstart := hostStart_le u
    have hlen : (u.drop (hostStart u)).length = u.length - hostStart u := List.length_drop
    obtain ⟨-, -, -, ⟨hend, hnil⟩ | ⟨hend, hhead⟩⟩ := slice_path hp hq hpath
    · apply iff_of_true hnil
      intro hmem
      have hlt := List.idxOf_lt_length_of_mem hmem
      omega
    · refine iff_of_false (fun hnil => ?_) (not_not.mpr ?_)
      · rw [show path = [] from hnil] at hhead
        cases hhead
      · by_contra hmem
        have hidx := List.idxOf_eq_length hmem
        omega

theorem parse_of_ordered (h : Ordered u) : ∃ r, parse u = some r := by
  by_cases hnil : u.length = 0
  · exact ⟨{}, if_pos hnil⟩
  · obtain ⟨p, hp⟩ : ∃ p, p = hostStart u + (u.drop (hostStart u)).idxOf (byteOf '/') := ⟨_, rfl⟩
    obtain ⟨hle, hstopq⟩ := (ordered_iff hp).mp h
    have hslash : findIn u (hostStart u) u.length (byteOf '/') = some p := by rw [findIn_slash, hp]
    have hqn : u.idxOf (byteOf '?') ≤ u.length := List.idxOf_le_length
    obtain ⟨protocol, hprotocol⟩ : ∃ protocol, (if (decide (u.idxOf (byteOf ':') ≠ u.length) &&
        atProtocolEnd (u.drop (u.idxOf (byteOf ':')))) = true then range u 0 (u.idxOf (byteOf ':')) else some []) =
        some protocol := exists_if_range fun _ => Nat.zero_le _
    obtain ⟨path, hpath⟩ : ∃ path, (if p ≠ u.length then range u p (u.idxOf (byteOf '?')) else some []) = some path :=
      exists_if_range fun hend => by rwa [if_pos hend] at hstopq
    obtain ⟨query, hquery⟩ : ∃ query, (if u.idxOf (byteOf '?') ≠ u.length then
        range u (u.idxOf (byteOf '?')) u.length else some []) = some query := exists_if_range fun _ => hqn
    obtain ⟨-, -, hcolon, -⟩ := slice_path hslash (findIn_whole u _) hpath
    obtain ⟨e, he⟩ : ∃ e, findIn u (hostStart u) (if p ≠ u.length then p else u.idxOf (byteOf '?')) (byteOf ':') =
        some e := ⟨_, findIn_of_le hle⟩
    obtain ⟨hse, hes, -, -⟩ := findIn_eq_some (hstopq.trans hqn) he
    obtain ⟨port, hport⟩ : ∃ port, (if (decide (e ≠ u.length) && decide (u[e]? = some (byteOf ':'))) = true then
        range u (e + 1) (if p ≠ u.length then p else u.idxOf (byteOf '?')) else some []) = some port := by
      refine exists_if_range fun hhas => Nat.lt_of_le_of_ne hes fun heq => ?_
      rw [Bool.and_eq_true, decide_eq_true_iff, decide_eq_true_iff] at hhas
      rw [← heq] at hcolon
      exact hcolon hhas.2
    refine ⟨⟨query, path, protocol, slice u (hostStart u) e, port, decide (u.idxOf (byteOf ':') ≠ u.length) &&
      atProtocolEnd (u.drop (u.idxOf (byteOf ':'))), decide (e ≠ u.length) && decide (u[e]? = some (byteOf ':'))⟩, ?_⟩
    rw [parse, if_neg hnil]
    simp only [Option.bind_eq_bind, Option.bind_eq_some_iff, Option.pure_def, Option.some.injEq]
    exact ⟨_, findIn_whole u _, _, findIn_whole u _, protocol, hprotocol, p, hslash, e, he, _, range_of_le hse, port,
      hport, path, hpath, query, hquery, rfl⟩

/-- `Uri::Parse` cuts a URL into its parts, without an inverted range and without a loss, exactly if no '?' stands in
its protocol or in front of the first '/' behind the protocol. -/
theorem parse_lossless_iff (u : List Int8) : (∃ r, parse u = some r ∧ r.PartsOf u) ↔ Ordered u :=
  ⟨fun ⟨_, h, _⟩ => ordered_of_parse h, fun h =>
    let ⟨r, hr⟩ := parse_of_ordered h
    ⟨r, hr, partsOf_of_parse hr⟩⟩

example : parse (bytesOf "http://host:80/a?b=c") = some
    { queryString := bytesOf "?b=c", path := bytesOf "/a", protocol := bytesOf "http", host := bytesOf "host",
      port := bytesOf "80", protocolSeparator := true, portSeparator := true } := by decide

/-- A '/' in the query. -/
theorem not_parse_lossless : ¬ ∀ u, ∃ r, parse u = some r ∧ r.PartsOf u := by
  intro h
  obtain ⟨r, hr, -⟩ := h (bytesOf "http://host?x=a/b")
  have hnone : parse (bytesOf "http://host?x=a/b") = none := by decide
  rw [hnone] at hr
  cases hr

end Uri
end CloudAgent.Cloud
