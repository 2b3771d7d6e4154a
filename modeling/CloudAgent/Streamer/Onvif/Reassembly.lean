import CloudAgent.Streamer.Onvif.MetadataSink

/-! ONVIF documents that come in several packets, and documents that come after damaged ones. -/
namespace CloudAgent.Streamer.Onvif.MetadataSink
open Transition

variable {ν : Type*} {x : RapidXml ν} {date : Utils.DateLibrary} {u v : MetadataSink × List Event}
  {D text : List Char} {n : ℕ} {events : List Event}

/-- A document: a text that validates, but no shorter one that it begins with, other than the empty one. -/
structure Document (x : RapidXml ν) (D : List Char) : Prop where
  ne_nil : D ≠ []
  valid : x.validate D = true
  least : ∀ p, p <+: D → p ≠ [] → p ≠ D → x.validate p = false

/-- The packets with these bytes. -/
def packets (ds : List (List Char)) : List Metadata := ds.map fun d => (.data, d)

@[simp] theorem packets_nil : packets [] = [] := rfl

@[simp] theorem packets_cons (d : List Char) (ds : List (List Char)) :
    packets (d :: ds) = (.data, d) :: packets ds := rfl

theorem packets_take_append_drop (n : ℕ) (ds : List (List Char)) :
    packets (ds.take n) ++ packets (ds.drop n) = packets ds := by
  rw [packets, packets, ← List.map_append, List.take_append_drop, packets]

/-- However the document is cut into one to four packets, a cleared sink gives it to the callback once, and is cleared
again. -/
def Reassembles (x : RapidXml ν) (date : Utils.DateLibrary) (D : List Char) : Prop :=
  ∀ ds events, ds.flatten = D → [] ∉ ds → 1 ≤ ds.length → ds.length ≤ 4 →
    ∃ event, event.rawBody = D ∧
      exec (step x date true) (cleared, events) (packets ds) = some (cleared, events ++ [event])

/-- All documents but the first `n` are given to the callback, each alone. -/
def DeliversAfter (x : RapidXml ν) (date : Utils.DateLibrary) (n : ℕ) (u : MetadataSink × List Event)
    (Ds : List (List Char)) : Prop :=
  ∃ t v, exec (step x date true) u (packets (Ds.take n)) = some t ∧
    exec (step x date true) t (packets (Ds.drop n)) = some v ∧
    v.2.map Event.rawBody = t.2.map Event.rawBody ++ Ds.drop n

/-- At most three documents are lost or merged. -/
def Recovers (x : RapidXml ν) (date : Utils.DateLibrary) (u : MetadataSink × List Event)
    (Ds : List (List Char)) : Prop :=
  ∃ n ≤ 3, DeliversAfter x date n u Ds

/-! ### One document -/

/-- A document that has begun and goes on. -/
theorem Document.begun (hdoc : Document x D) {p rest : List Char} (h : p ++ rest = D) (hp : p ≠ [])
    (hrest : rest ≠ []) : x.validate p = false := by
  refine hdoc.least p ⟨rest, h⟩ hp fun heq => ?_
  exact hrest (List.append_right_eq_self.mp (h.trans heq.symm))

/-- The packets that make up a document, from the place where it goes on. -/
theorem exec_of_split (hdoc : Document x D) (hp : x.Parsable D) {ds : List (List Char)} (htext : text ++ ds.flatten = D)
    (hne : [] ∉ ds) (hds : ds ≠ []) (hlen : n + ds.length ≤ 4) :
    ∃ event, event.rawBody = D ∧
      exec (step x date true) (⟨text, n⟩, events) (packets ds) = some (cleared, events ++ [event]) := by
  induction ds generalizing text n with
  | nil => exact absurd rfl hds
  | cons d ds ih =>
    obtain ⟨hd, hne⟩ := not_or.mp (fun h => hne (List.mem_cons.mpr h))
    rw [List.flatten_cons, ← List.append_assoc] at htext
    rw [List.length_cons] at hlen
    simp only [packets, List.map_cons, exec_cons]
    cases ds with
    | nil =>
      rw [List.flatten_nil, List.append_nil] at htext
      obtain ⟨event, hbody, hstep⟩ := step_of_parsable date n events (htext ▸ hdoc.valid) (htext ▸ hp)
      refine ⟨event, hbody.trans htext, ?_⟩
      rw [hstep]
      rfl
    | cons e es =>
      have hrest : (e :: es).flatten ≠ [] := by
        intro h
        exact hne (List.mem_cons.mpr (.inl (List.flatten_eq_nil_iff.mp h e List.mem_cons_self).symm))
      have hbegun : text ++ d ≠ [] := by
        intro h
        exact hd (List.append_eq_nil_iff.mp h).2.symm
      have hinvalid : x.validate (text ++ d) = false := hdoc.begun htext hbegun hrest
      rw [List.length_cons] at hlen
      have hlimit : ¬ maxAggregatedPackets < n + 1 := by
        unfold maxAggregatedPackets
        omega
      rw [step_of_invalid date true n events hinvalid, if_neg hlimit, Option.bind_some]
      exact ih htext hne (List.cons_ne_nil e es) (by rw [List.length_cons]; omega)

/-- A document is put together from its packets exactly if an event can be read from it. -/
theorem reassembles_iff (hdoc : Document x D) : Reassembles x date D ↔ x.Parsable D := by
  constructor
  · intro h
    have hne : ([] : List Char) ∉ [D] := fun hmem => hdoc.ne_nil (List.mem_singleton.mp hmem).symm
    obtain ⟨event, -, hrun⟩ := h [D] [] List.flatten_singleton hne (by simp) (by simp)
    have hmeets := (exec_isSome_iff step_isSome_iff).mp (Option.isSome_iff_exists.mpr ⟨_, hrun⟩)
    exact hmeets.1 rfl rfl hdoc.valid
  · rintro hp ds events hD hne hds hlen
    exact exec_of_split hdoc hp hD hne (List.ne_nil_of_length_pos hds) (by omega)

/-! ### Documents after others -/

/-- Between packets no more than three packets wait, and some wait where there is a text. -/
structure Waiting (s : MetadataSink) : Prop where
  limit : s.numAggregatedPackets ≤ maxAggregatedPackets
  empty : s.numAggregatedPackets = 0 → s.aggregatedData = []

theorem Waiting.of_cleared : Waiting cleared := ⟨Nat.zero_le _, fun _ => rfl⟩

theorem Waiting.of_step {metadata : Metadata} (h : Waiting u.1) (hs : step x date true u metadata = some v) :
    Waiting v.1 := by
  obtain ⟨⟨text, n⟩, events⟩ := u
  obtain ⟨type, d⟩ := metadata
  by_cases htype : type = .data
  · subst htype
    cases hvalid : x.validate (text ++ d) with
    | false =>
      rw [step_of_invalid date true n events hvalid] at hs
      obtain rfl := Option.some.inj hs
      dsimp only
      split
      · exact .of_cleared
      · rename_i hlimit
        exact ⟨not_lt.mp hlimit, fun hn => absurd hn (Nat.succ_ne_zero n)⟩
    | true =>
      rw [step_of_valid hvalid, Option.map_eq_some_iff] at hs
      obtain ⟨event, -, rfl⟩ := hs
      exact .of_cleared
  · rw [step_of_ne_data htype] at hs
    obtain rfl := Option.some.inj hs
    exact h

variable {Ds : List (List Char)}

/-- A cleared sink gives every document alone to the callback. -/
theorem deliversAfter_cleared (hdoc : ∀ D ∈ Ds, Document x D)
    (hm : Meets (step x date true) (Harmless x true) (cleared, events) (packets Ds)) :
    DeliversAfter x date 0 (cleared, events) Ds := by
  suffices h : ∃ later, later.map Event.rawBody = Ds ∧
      exec (step x date true) (cleared, events) (packets Ds) = some (cleared, events ++ later) by
    obtain ⟨later, hlater, hrun⟩ := h
    refine ⟨_, _, rfl, hrun, ?_⟩
    rw [List.map_append, hlater, List.drop_zero]
  induction Ds generalizing events with
  | nil => exact ⟨[], rfl, by simp⟩
  | cons D Ds ih =>
    obtain ⟨hD, hdoc⟩ := List.forall_mem_cons.mp hdoc
    rw [packets_cons] at hm
    obtain ⟨hharmless, hm⟩ := hm
    obtain ⟨event, hbody, hstep⟩ := step_cleared date events hD.valid (hharmless rfl rfl hD.valid)
    obtain ⟨later, hlater, hrun⟩ := ih hdoc (hm _ hstep)
    refine ⟨event :: later, ?_, ?_⟩
    · rw [List.map_cons, hlater, hbody]
    · rw [packets_cons, exec_cons, hstep, Option.bind_some, hrun, List.append_assoc, List.singleton_append]

theorem DeliversAfter.cons {w : MetadataSink × List Event} (hs : step x date true u (.data, D) = some w)
    (h : DeliversAfter x date n w Ds) : DeliversAfter x date (n + 1) u (D :: Ds) := by
  obtain ⟨t, v, ht, hv, hbodies⟩ := h
  refine ⟨t, v, ?_, hv, hbodies⟩
  rw [List.take_succ_cons, packets_cons, exec_cons, hs, Option.bind_some, ht]

/-- Where packets wait, the text is cleared when the fourth packet is there, or before. -/
theorem deliversAfter_of_pos (hdoc : ∀ D ∈ Ds, Document x D) (hn : 0 < n) (hlimit : n ≤ 3)
    (hm : Meets (step x date true) (Harmless x true) (⟨text, n⟩, events) (packets Ds)) :
    ∃ k ≤ 4 - n, DeliversAfter x date k (⟨text, n⟩, events) Ds := by
  induction Ds generalizing text n with
  | nil => exact ⟨0, Nat.zero_le _, _, _, rfl, rfl, by simp⟩
  | cons D Ds ih =>
    obtain ⟨hD, hdoc⟩ := List.forall_mem_cons.mp hdoc
    rw [packets_cons] at hm
    obtain ⟨hharmless, hm⟩ := hm
    cases hvalid : x.validate (text ++ D) with
    | true =>
      obtain ⟨event, -, hstep⟩ := step_of_parsable date n events hvalid (hharmless rfl rfl hvalid)
      exact ⟨1, by omega, (deliversAfter_cleared hdoc (hm _ hstep)).cons hstep⟩
    | false =>
      have hstep := step_of_invalid date true n events hvalid
      split at hstep
      · exact ⟨1, by omega, (deliversAfter_cleared hdoc (hm _ hstep)).cons hstep⟩
      · rename_i hmore
        unfold maxAggregatedPackets at hmore
        obtain ⟨k, hk, h⟩ := ih hdoc (Nat.succ_pos n) (by omega) (hm _ hstep)
        exact ⟨k + 1, by omega, h.cons hstep⟩

/-- Documents are delivered again, after three at most, exactly if none of the texts that come together crashes the
process. -/
theorem recovers_iff_harmless (h : Waiting u.1) (hdoc : ∀ D ∈ Ds, Document x D) :
    Recovers x date u Ds ↔ Meets (step x date true) (Harmless x true) u (packets Ds) := by
  constructor
  · rintro ⟨n, -, t, v, ht, hv, -⟩
    refine (exec_isSome_iff step_isSome_iff).mp (Option.isSome_iff_exists.mpr ⟨v, ?_⟩)
    rw [← packets_take_append_drop n, exec_append, ht, Option.bind_some, hv]
  · intro hm
    obtain ⟨⟨text, n⟩, events⟩ := u
    obtain rfl | hn := Nat.eq_zero_or_pos n
    · obtain rfl : text = [] := h.empty rfl
      exact ⟨0, by omega, deliversAfter_cleared hdoc hm⟩
    · obtain ⟨k, hk, hdelivers⟩ := deliversAfter_of_pos hdoc hn h.limit hm
      exact ⟨k, by omega, hdelivers⟩

/-- A cleared sink puts a document together, however it is cut, exactly if an event can be read from it; and the
documents after any packets are delivered, all but three at most, exactly if none of them crashes the process. -/
theorem reassembly_iff (x : RapidXml ν) (date : Utils.DateLibrary) :
    (∀ D, Document x D → (Reassembles x date D ↔ x.Parsable D)) ∧
      ∀ events before u, exec (step x date true) (cleared, events) before = some u →
        ∀ Ds, (∀ D ∈ Ds, Document x D) →
          (Recovers x date u Ds ↔ Meets (step x date true) (Harmless x true) u (packets Ds)) := by
  refine ⟨fun D hdoc => reassembles_iff hdoc, fun events before u hrun Ds hdoc => recovers_iff_harmless ?_ hdoc⟩
  exact run_invariant (P := fun w => Waiting w.1) (fun _ _ _ => Waiting.of_step) Waiting.of_cleared hrun

def withTopic : List Char :=
  metadataStream ("<wsnt:NotificationMessage xmlns:wsnt=\"http://docs.oasis-open.org/wsn/b-2\">" ++
    "<wsnt:Topic>tns1:VideoSource/MotionAlarm</wsnt:Topic></wsnt:NotificationMessage>")

theorem document_oneNotification (notification : String) (topic : Option ℕ) :
    Document (oneNotification (metadataStream notification) topic) (metadataStream notification) where
  ne_nil := by simp [metadataStream]
  valid := validate_oneNotification _ topic
  least p _ hne hD := by simp [oneNotification, hne, hD]

theorem not_validate_start (notification : String) (topic : Option ℕ) :
    (oneNotification (metadataStream notification) topic).validate ['<'] = false := by
  simp [oneNotification, metadataStream]

theorem harmless_oneNotification (topic : ℕ) (hD : D ≠ []) (w : MetadataSink × List Event) (metadata : Metadata) :
    Harmless (oneNotification D (some topic)) true w metadata := by
  intro _ _ hvalid
  have hcases : w.1.aggregatedData ++ metadata.2 = [] ∨ w.1.aggregatedData ++ metadata.2 = D := by
    simpa [oneNotification] using hvalid
  obtain hnil | htext := hcases
  · rw [hnil]
    exact ⟨5, by simp [oneNotification, hD.symm], by simp [RapidXml.notificationMessage, oneNotification]⟩
  · rw [htext]
    exact (parsable_oneNotification D _).mpr (Option.some_ne_none topic)

/-- After a packet that was the beginning of a document. -/
theorem reassembly_with_topic :
    Reassembles (oneNotification withTopic (some 4)) .reference withTopic ∧
      Recovers (oneNotification withTopic (some 4)) .reference (⟨['<'], 1⟩, []) [withTopic, withTopic] := by
  have hdoc : Document (oneNotification withTopic (some 4)) withTopic := document_oneNotification _ _
  have hstart : exec (step (oneNotification withTopic (some 4)) .reference true) (cleared, []) [(.data, ['<'])] =
      some (⟨['<'], 1⟩, []) := by
    have hinvalid : (oneNotification withTopic (some 4)).validate ([] ++ ['<']) = false := not_validate_start _ _
    exact exec_cons_eq_some.mpr ⟨_, step_of_invalid .reference true 0 [] hinvalid, rfl⟩
  obtain ⟨hreassembles, hrecovers⟩ := reassembly_iff (oneNotification withTopic (some 4)) .reference
  refine ⟨(hreassembles _ hdoc).mpr ?_, (hrecovers [] _ _ hstart _ ?_).mpr ?_⟩
  · exact (parsable_oneNotification withTopic _).mpr (Option.some_ne_none 4)
  · simpa using hdoc
  · exact .of_forall_mem fun _ _ _ => harmless_oneNotification 4 hdoc.ne_nil _ _

/-- A document in one packet, whose notification has no topic. -/
theorem not_reassembled_without_topic :
    Document (oneNotification noTopic none) noTopic ∧
      ¬ Reassembles (oneNotification noTopic none) .reference noTopic := by
  have hdoc : Document (oneNotification noTopic none) noTopic := document_oneNotification _ _
  refine ⟨hdoc, fun h => ?_⟩
  exact (parsable_oneNotification noTopic none).mp ((reassembles_iff hdoc).mp h) rfl

end CloudAgent.Streamer.Onvif.MetadataSink
