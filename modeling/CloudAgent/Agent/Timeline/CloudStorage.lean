import CloudAgent.Agent.Timeline.VfsStorage
import CloudAgent.Proto.DirectUpload

/-! The timed storage in the cloud: what its requests make of the answers of the server. Pages are
parsed by the JSON library, which is a parameter; bodies of failed requests are only logged. -/
namespace CloudAgent.Agent
open Utils

/-- `storage::data::object_object`. -/
structure StorageObject where
  start : Time
  stop : Time
  url : String
  deriving DecidableEq, Repr

/-- `storage::data::response`, with `meta.next`. -/
structure StorageResponse where
  next : String := Proto.unsetString
  objects : List StorageObject := []
  deriving DecidableEq, Repr

/-- How a request ended: the result of `make_blocked`, the code and the body. -/
structure HttpAnswer where
  finished : Bool
  code : ℤ
  body : List UInt8 := []
  deriving DecidableEq, Repr

/-- The test for a successful request. -/
def HttpAnswer.ok (a : HttpAnswer) : Bool := a.finished && a.code = 200

/-- What `cloud_storage` knows of its server: `api_uri` for the transport in use, the token, and the
parser of the pages. -/
structure CloudStorage where
  apiUri : String
  token : String
  date : DateLibrary
  parse : List UInt8 → StorageResponse

namespace CloudStorage

/-- The URL that asks for the objects of a range. -/
def dataUrl (c : CloudStorage) (start stop : Time) : String :=
  c.apiUri ++ "/api/v2/storage/data/?" ++ "token=" ++ c.token ++ "&start=" ++
    String.ofList (Time.toIso2 c.date start) ++ "&end=" ++ String.ofList (Time.toIso2 c.date stop)

/-! ### Listing -/

/-- The variables of `cloud_storage::list`, and the URLs that were requested. -/
structure Listing where
  r : StorageResponse := {}
  result : List Period := []
  requested : List String := []

/-- The items of a page. -/
def items (r : StorageResponse) : List Period := cloudStorageList (r.objects.map fun o => (o.start, o.stop))

/-- One pass of the loop of `list`, with the answer to its request. -/
def listStep (c : CloudStorage) (start stop : Time) (l : Listing) (answer : HttpAnswer) : Listing :=
  let url := if l.r.next ≠ Proto.unsetString then c.apiUri ++ l.r.next else c.dataUrl start stop
  if answer.ok then
    { r := c.parse answer.body
      result := l.result ++ items (c.parse answer.body)
      requested := l.requested ++ [url] }
  else { l with requested := l.requested ++ [url] }

/-- The loop of `list` from its `n`-th request on, with a bound on the number of its passes; the
answer is the number of requests that were made and the variables at the end. -/
def listFrom (c : CloudStorage) (start stop : Time) (answers : ℕ → HttpAnswer) :
    ℕ → ℕ → Listing → Option (ℕ × Listing)
  | 0, _, _ => none
  | fuel + 1, n, l =>
    let l := c.listStep start stop l (answers n)
    if l.r.next = Proto.unsetString then some (n + 1, l) else listFrom c start stop answers fuel (n + 1) l

/-- The objects of the successful pages among the first `n` answers, in order. -/
def received (c : CloudStorage) (answers : ℕ → HttpAnswer) (n : ℕ) : List Period :=
  (List.range n).flatMap fun k => if (answers k).ok then items (c.parse (answers k).body) else []

/-- `list` stops and returns what it received. -/
def Lists (c : CloudStorage) (start stop : Time) (answers : ℕ → HttpAnswer) : Prop :=
  ∃ fuel n l, c.listFrom start stop answers fuel 0 {} = some (n, l) ∧ l.result = c.received answers n

variable {c : CloudStorage} {start stop : Time} {answers : ℕ → HttpAnswer}

theorem received_succ (c : CloudStorage) (answers : ℕ → HttpAnswer) (n : ℕ) :
    c.received answers (n + 1) =
      c.received answers n ++ if (answers n).ok then items (c.parse (answers n).body) else [] := by
  simp only [received, List.range_succ, List.flatMap_append, List.flatMap_cons, List.flatMap_nil,
    List.append_nil]

theorem listStep_result (start stop : Time) {l : Listing} {n : ℕ} (h : l.result = c.received answers n) :
    (c.listStep start stop l (answers n)).result = c.received answers (n + 1) := by
  rw [received_succ, listStep]
  split
  · rw [h]
  · rw [h, List.append_nil]

theorem listFrom_result {fuel n m : ℕ} {l l' : Listing} (h : l.result = c.received answers n)
    (hl : c.listFrom start stop answers fuel n l = some (m, l')) : l'.result = c.received answers m := by
  induction fuel generalizing n l with
  | zero => cases hl
  | succ fuel ih =>
    have hstep := listStep_result start stop h
    simp only [listFrom] at hl
    split at hl
    · obtain ⟨rfl, rfl⟩ := Prod.mk.inj (Option.some.inj hl)
      exact hstep
    · exact ih hstep hl

/-- The answer is a page after which there is no other. -/
def lastPage (c : CloudStorage) (answer : HttpAnswer) : Bool :=
  answer.ok && (c.parse answer.body).next = Proto.unsetString

/-- Once a page names a next one, only a last page ends the loop. -/
theorem lastPage_of_listFrom {fuel n m : ℕ} {l l' : Listing} (hnext : l.r.next ≠ Proto.unsetString)
    (hl : c.listFrom start stop answers fuel n l = some (m, l')) : ∃ k, c.lastPage (answers k) = true := by
  induction fuel generalizing n l with
  | zero => cases hl
  | succ fuel ih =>
    simp only [listFrom] at hl
    split at hl
    · rename_i hunset
      cases hok : (answers n).ok with
      | true =>
        simp only [listStep, hok, if_true] at hunset
        exact ⟨n, by simp [lastPage, hok, hunset]⟩
      | false =>
        simp only [listStep, hok, Bool.false_eq_true, if_false] at hunset
        exact absurd hunset hnext
    · rename_i hset
      exact ih hset hl

/-- A last page ends the loop unless it has ended before. -/
theorem listFrom_of_lastPage (start stop : Time) {k n : ℕ} (l : Listing) (h : c.lastPage (answers (n + k)) = true) :
    ∃ m l', c.listFrom start stop answers (k + 1) n l = some (m, l') := by
  induction k generalizing n l with
  | zero =>
    simp only [lastPage, Nat.add_zero, Bool.and_eq_true, decide_eq_true_eq] at h
    refine ⟨n + 1, c.listStep start stop l (answers n), ?_⟩
    simp only [listFrom, listStep, h.1, if_true, h.2]
  | succ k ih =>
    have hrest := ih (n := n + 1) (c.listStep start stop l (answers n)) (by rwa [Nat.add_right_comm])
    rw [listFrom]
    split
    · exact ⟨_, _, rfl⟩
    · exact hrest

theorem lists_iff_lastPage (c : CloudStorage) (start stop : Time) (answers : ℕ → HttpAnswer) :
    c.Lists start stop answers ↔ (answers 0).ok = false ∨ ∃ n, c.lastPage (answers n) = true := by
  constructor
  · rintro ⟨fuel, n, l, hl, -⟩
    cases fuel with
    | zero => cases hl
    | succ fuel =>
      cases hok : (answers 0).ok with
      | false => exact Or.inl rfl
      | true =>
        right
        simp only [listFrom, listStep, hok, if_true] at hl
        split at hl
        · rename_i hunset
          exact ⟨0, by simp [lastPage, hok, hunset]⟩
        · rename_i hset
          exact lastPage_of_listFrom hset hl
  · intro h
    have hstop : ∃ fuel n l, c.listFrom start stop answers fuel 0 {} = some (n, l) := by
      rcases h with h | ⟨n, h⟩
      · exact ⟨1, 1, c.listStep start stop {} (answers 0), by simp [listFrom, listStep, h]⟩
      · obtain ⟨m, l, hl⟩ := listFrom_of_lastPage start stop {}
          (by rwa [Nat.zero_add] : c.lastPage (answers (0 + n)) = true)
        exact ⟨n + 1, m, l, hl⟩
    obtain ⟨fuel, n, l, hl⟩ := hstop
    exact ⟨fuel, n, l, hl, listFrom_result rfl hl⟩

/-- Whatever the answers are, `list` stops and returns the objects of the successful pages exactly
if its first request fails or some page is the last one. -/
theorem lists_iff (c : CloudStorage) (start stop : Time) (answers : ℕ → HttpAnswer) :
    c.Lists start stop answers ↔
      (answers 0).ok = false ∨
        ∃ n, (answers n).ok = true ∧ (c.parse (answers n).body).next = Proto.unsetString := by
  rw [lists_iff_lastPage]
  simp only [lastPage, Bool.and_eq_true, decide_eq_true_eq]

/-- A server whose page names a next one, and which fails from then on. -/
def failingServer : ℕ → HttpAnswer
  | 0 => { finished := true, code := 200 }
  | _ + 1 => { finished := false, code := -1 }

def onePage : CloudStorage where
  apiUri := "http://api"
  token := "t"
  date := .reference
  parse _ := { next := "/api/v2/storage/data/?offset=1" }

theorem not_lists_failingServer :
    (∃ n, ∀ k ≥ n, ¬ ((failingServer k).ok = true ∧
        (onePage.parse (failingServer k).body).next ≠ Proto.unsetString)) ∧
      ¬ onePage.Lists 1000000000 2000000000 failingServer := by
  constructor
  · refine ⟨1, fun k hk => ?_⟩
    obtain ⟨j, rfl⟩ := Nat.exists_eq_add_of_le' hk
    simp [failingServer, HttpAnswer.ok]
  · rw [lists_iff_lastPage]
    rintro (h | ⟨n, h⟩)
    · exact absurd h (by decide)
    · have hnext : ("/api/v2/storage/data/?offset=1" = Proto.unsetString) = False := by decide
      simp [lastPage, onePage, hnext] at h

/-! ### Loading -/

/-- `timed_storage::item::clear`. -/
def cleared : Item := { beginTime := Time.null, endTime := Time.null, data := [] }

/-- The item of an object and the bytes that were downloaded for it. -/
def downloaded (o : StorageObject) (body : List UInt8) : Item :=
  { beginTime := o.start, endTime := o.stop, data := body }

/-- `cloud_storage::load`, for a server that answers the index request and the data request. -/
def load (c : CloudStorage) (index data : String → HttpAnswer) (item : Item) : Bool × Item :=
  let req := index (c.dataUrl item.beginTime item.endTime)
  if req.ok then
    match (c.parse req.body).objects.getLast? with
    | none => (false, item)
    | some last =>
      let req := data last.url
      -- the item is cleared before the data is there
      if req.ok then (true, downloaded last req.body) else (false, cleared)
  else (false, item)

/-- The object whose data is loaded, if the index request finds one. -/
def indexed (c : CloudStorage) (index : String → HttpAnswer) (item : Item) : Option StorageObject :=
  let req := index (c.dataUrl item.beginTime item.endTime)
  if req.ok then (c.parse req.body).objects.getLast? else none

theorem load_eq (c : CloudStorage) (index data : String → HttpAnswer) (item : Item) :
    c.load index data item =
      match c.indexed index item with
      | none => (false, item)
      | some last =>
        if (data last.url).ok then (true, downloaded last (data last.url).body)
        else (false, cleared) := by
  simp only [load, indexed]
  cases (index (c.dataUrl item.beginTime item.endTime)).ok with
  | true => simp only [if_true]
  | false => simp only [Bool.false_eq_true, if_false]

/-- A failed load leaves the item alone, and a successful one fills it with the last listed object and
the downloaded bytes, exactly if the data request does not fail after an index request that found
an object, or the item was clear anyway. -/
theorem load_exact (c : CloudStorage) (index data : String → HttpAnswer) (item : Item) :
    (((c.load index data item).1 = false → (c.load index data item).2 = item) ∧
        ((c.load index data item).1 = true → ∃ last, c.indexed index item = some last ∧
          (c.load index data item).2 = downloaded last (data last.url).body)) ↔
      (∀ last, c.indexed index item = some last → (data last.url).ok = true) ∨ item = cleared := by
  rw [load_eq]
  cases hindex : c.indexed index item with
  | none => exact iff_of_true ⟨fun _ => rfl, fun h => absurd h Bool.false_ne_true⟩ (Or.inl nofun)
  | some last =>
    cases hdata : (data last.url).ok with
    | true =>
      simp only [hdata, if_true]
      refine iff_of_true ⟨fun h => absurd h.symm Bool.false_ne_true, fun _ => ⟨last, rfl, rfl⟩⟩ (Or.inl ?_)
      intro o ho
      rw [← Option.some.inj ho, hdata]
    | false =>
      simp only [hdata, Bool.false_eq_true, if_false]
      constructor
      · exact fun h => Or.inr (h.1 trivial).symm
      · rintro (h | rfl)
        · rw [h last rfl] at hdata
          exact absurd hdata.symm Bool.false_ne_true
        · exact ⟨fun _ => rfl, False.elim⟩

/-- The index request finds an object whose data cannot be downloaded. -/
def oneObject : CloudStorage where
  apiUri := "http://api"
  token := "t"
  date := .reference
  parse _ := { objects := [{ start := 1000, stop := 2000, url := "http://data/1" }] }

theorem load_cleared :
    let item : Item := { beginTime := 1000, endTime := 2000, data := [7] }
    let after := oneObject.load (fun _ => { finished := true, code := 200 })
      (fun _ => { finished := true, code := 503 }) item
    after.1 = false ∧ after.2 ≠ item ∧ after.2.endTime = Time.null := by
  decide

end CloudStorage
end CloudAgent.Agent
