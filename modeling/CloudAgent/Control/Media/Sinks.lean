import CloudAgent.Control.Media
import CloudAgent.Lib.Transition

/-! The sinks of the streams against the starts and stops that the cloud asks for. The manager has one
counter for the sinks of all streams, and only the start that finds it at zero increments it. -/
namespace CloudAgent.Control
open Proto Transition

/-! ### One counter for all sinks -/

namespace Publisher
variable {env : Env} {p : Publisher} {s : String} {n : String → ℕ}

/-- The source of the stream runs, or it can be started. -/
def sourceStarts (env : Env) (s : String) (p : Publisher) : Bool := s ∈ p.sourceStarted || env.startSource s

/-- A start of a stream for the cloud: its source, then its sink. -/
def start (env : Env) (s : String) (p : Publisher) : Bool × Publisher :=
  if (p.startSource env s).1 then (p.startSource env s).2.publish env s else (false, (p.startSource env s).2)

theorem startSource_fst (env : Env) (s : String) (p : Publisher) :
    (p.startSource env s).1 = p.sourceStarts env s := by
  unfold startSource sourceStarts
  split_ifs with hs he <;> simp [*]

@[simp] theorem activeSinks_startSource (env : Env) (s : String) (p : Publisher) :
    (p.startSource env s).2.activeSinks = p.activeSinks := by
  unfold startSource
  split_ifs <;> rfl

@[simp] theorem sinkStarted_startSource (env : Env) (s : String) (p : Publisher) :
    (p.startSource env s).2.sinkStarted = p.sinkStarted := by
  unfold startSource
  split_ifs <;> rfl

/-- The counter and the sinks when `n s` starts of each stream `s` wait for their stop: one stream is
published at most, and counts once however often it was started. -/
def OneSink (p : Publisher) (n : String → ℕ) : Prop :=
  (p.activeSinks = 0 ∧ p.sinkStarted = ∅ ∧ ∀ s, n s = 0) ∨
    ∃ r, p.activeSinks = 1 ∧ p.sinkStarted = {r} ∧ 0 < n r ∧ ∀ s, s ≠ r → n s = 0

theorem OneSink.mem_iff (h : p.OneSink n) (s : String) : s ∈ p.sinkStarted ↔ 0 < n s := by
  obtain ⟨-, hs, hn⟩ | ⟨r, -, hs, hr, hn⟩ := h
  · simp [hs, hn]
  · by_cases hsr : s = r
    · simp [hs, hsr, hr]
    · simp [hs, hsr, hn s hsr]

theorem OneSink.congr {q : Publisher} (h : p.OneSink n) (ha : q.activeSinks = p.activeSinks)
    (hs : q.sinkStarted = p.sinkStarted) : q.OneSink n := by
  unfold OneSink
  rw [ha, hs]
  exact h

theorem OneSink.publish (h : p.OneSink n) (hone : ∀ r ∈ p.sinkStarted, r = s) :
    (p.publish env s).2.OneSink (Function.update n s (n s + (p.publish env s).1.toNat)) := by
  obtain ⟨ha, hs, hn⟩ | ⟨r, ha, hs, hr, hn⟩ := h
  · by_cases he : env.startSink s = true
    · refine .inr ⟨s, ?_⟩
      simp +contextual [Publisher.publish, startSink, ha, hs, hn, he]
    · left
      have hsame : Function.update n s 0 = n := by rw [← hn s, Function.update_eq_self]
      simp [Publisher.publish, startSink, ha, hs, hn, he, hsame]
  · obtain rfl : r = s := hone r (by simp [hs])
    have hp : p.publish env r = (true, p) := by simp [Publisher.publish, ha]
    rw [hp]
    exact .inr ⟨r, ha, hs, by simp, fun s hsr => by simp [hsr, hn s hsr]⟩

theorem OneSink.start (h : p.OneSink n) (hone : p.sourceStarts env s = true → ∀ r ∈ p.sinkStarted, r = s) :
    (p.start env s).2.OneSink (Function.update n s (n s + (p.start env s).1.toNat)) := by
  have hq := h.congr (activeSinks_startSource env s p) (sinkStarted_startSource env s p)
  unfold Publisher.start
  rw [startSource_fst]
  split_ifs with hstart
  · exact hq.publish (by simpa using hone hstart)
  · simpa using hq

/-- A start finds another stream published and leaves its own without a sink. -/
theorem OneSink.start_skips (h : p.OneSink n) (hstart : p.sourceStarts env s = true)
    (hother : ¬ ∀ r ∈ p.sinkStarted, r = s) : (p.start env s).1 = true ∧ s ∉ (p.start env s).2.sinkStarted := by
  unfold Publisher.start
  rw [startSource_fst, if_pos hstart]
  obtain ⟨-, hs, -⟩ | ⟨r, ha, hs, -, -⟩ := h
  · simp [hs] at hother
  · simp only [hs, Finset.mem_singleton, forall_eq] at hother
    simp [Publisher.publish, ha, hs, Ne.symm hother]

theorem OneSink.unpublish (h : p.OneSink n) (hs : 0 < n s) :
    (p.unpublish s).activeSinks = 0 ∧ (p.unpublish s).sinkStarted = ∅ ∧ ∀ r, r ≠ s → n r = 0 := by
  obtain ⟨-, -, hn⟩ | ⟨r, ha, hsink, -, hn⟩ := h
  · simp [hn] at hs
  · obtain rfl : s = r := by
      by_contra hsr
      simp [hn s hsr] at hs
    exact ⟨by simp [Publisher.unpublish, ha], by simp [Publisher.unpublish, ha, hsink], hn⟩

@[simp] theorem activeSinks_stopSource (s : String) (p : Publisher) :
    (p.stopSource s).activeSinks = p.activeSinks := rfl

@[simp] theorem sinkStarted_stopSource (s : String) (p : Publisher) :
    (p.stopSource s).sinkStarted = p.sinkStarted := rfl

end Publisher

/-! ### What the calls do to the sinks -/

/-- The reasons for which a stream is published to the cloud. -/
def publishes : StreamReason → Bool
  | .live | .record | .serverByEvent => true
  | .recordByEvent | .recordDirect | .invalid => false

namespace Media
variable {dev : Device} {env : Env} {lookup : EventObject → Option EventConfig} {m : Media}
  {streamId : String} {reason : StreamReason}

@[simp] theorem publisher_notifyRecordEvent (s : String) (on : Bool) (m : Media) :
    (m.notifyRecordEvent s on).publisher = m.publisher := by
  rw [notifyRecordEvent_eq]

@[simp] theorem continuosDirectRecord_notifyRecordEvent (s : String) (on : Bool) (m : Media) :
    (m.notifyRecordEvent s on).continuosDirectRecord = m.continuosDirectRecord := by
  rw [notifyRecordEvent_eq]

/-- A start for live viewing is a start of the source and the sink. -/
theorem startLive_eq (env : Env) (s : String) (m : Media) :
    m.startLive env s =
      ((m.publisher.start env s).1, { m with publisher := (m.publisher.start env s).2 }) := by
  unfold startLive Publisher.start
  rcases m.publisher.startSource env s with ⟨started, p⟩
  cases started <;> rfl

/-- A start for recording is one as well; it may notify the cloud of a record, and its stream becomes
the stream of the records. -/
theorem startRecord_eq (env : Env) (s : String) (m : Media) :
    m.startRecord env s =
      ((m.publisher.start env s).1,
        { (if m.publisher.sourceStarts env s && m.streamByEvent then m.notifyRecordEvent s true else m) with
          publisher := (m.publisher.start env s).2
          recordStream := if (m.publisher.start env s).1 then some s else m.recordStream }) := by
  unfold startRecord Publisher.start
  rw [← Publisher.startSource_fst]
  rcases m.publisher.startSource env s with ⟨started, p⟩
  cases started
  · rfl
  · cases hs : m.streamByEvent <;> simp [hs, notifyRecordEvent_eq]

/-- The stream can be started for this reason: it is known, event driven recording has event streams,
and its source runs or starts. -/
def sourceStarts (dev : Device) (env : Env) (streamId : String) (reason : StreamReason) (m : Media) : Bool :=
  (dev.lookupStream streamId).isSome && (reason ≠ .serverByEvent || !dev.eventStreams.isEmpty) &&
    m.publisher.sourceStarts env streamId

theorem cloudName_of_lookupStream {stream : MediaStream} (h : dev.lookupStream streamId = some stream) :
    stream.cloudName = streamId := by
  simpa using List.find?_some h

/-- What `on_stream_start` does to the sinks for the reasons that publish. -/
theorem onStreamStart_sinks (dev : Device) (env : Env) (lookup : EventObject → Option EventConfig)
    (streamId : String) (m : Media) (hr : publishes reason = true) :
    (m.onStreamStart dev env lookup streamId reason).2.continuosDirectRecord = m.continuosDirectRecord ∧
      (m.onStreamStart dev env lookup streamId reason =
          (false, m) ∧ m.sourceStarts dev env streamId reason = false ∨
        (m.onStreamStart dev env lookup streamId reason).1 = (m.publisher.start env streamId).1 ∧
          (m.onStreamStart dev env lookup streamId reason).2.publisher =
            (m.publisher.start env streamId).2 ∧
          m.sourceStarts dev env streamId reason = m.publisher.sourceStarts env streamId) := by
  unfold onStreamStart sourceStarts
  cases hs : dev.lookupStream streamId with
  | none => simp
  | some stream =>
    obtain rfl := cloudName_of_lookupStream hs
    have hlive := startLive_eq env stream.cloudName m
    have hrecord := startRecord_eq env stream.cloudName m
    cases reason with
    | live => simp [hlive]
    | record => simp [hrecord, apply_ite Media.continuosDirectRecord]
    | serverByEvent =>
      by_cases he : dev.eventStreams = []
      · simp [he]
      · simp [he, hrecord, apply_ite Media.continuosDirectRecord]
    | recordByEvent => simp [publishes] at hr
    | recordDirect => simp [publishes] at hr
    | invalid => simp [publishes] at hr

/-- Only the source of the stream is touched. -/
theorem stopIdleSource_eq (dev : Device) (s : String) (m : Media) :
    m.stopIdleSource dev s = m ∨ m.stopIdleSource dev s = { m with publisher := m.publisher.stopSource s } := by
  unfold stopIdleSource
  split_ifs
  · exact .inr rfl
  · exact .inl rfl

/-- The end of a stop touches the publisher only. -/
theorem stopIdleSource_publisher (dev : Device) (s : String) (m : Media) :
    ∃ publisher, m.stopIdleSource dev s = { m with publisher } := by
  obtain heq | heq := m.stopIdleSource_eq dev s
  · exact ⟨m.publisher, heq⟩
  · exact ⟨_, heq⟩

@[simp] theorem activeSinks_stopIdleSource (dev : Device) (s : String) (m : Media) :
    (m.stopIdleSource dev s).publisher.activeSinks = m.publisher.activeSinks := by
  obtain h | h := m.stopIdleSource_eq dev s <;> rw [h]
  rfl

@[simp] theorem sinkStarted_stopIdleSource (dev : Device) (s : String) (m : Media) :
    (m.stopIdleSource dev s).publisher.sinkStarted = m.publisher.sinkStarted := by
  obtain h | h := m.stopIdleSource_eq dev s <;> rw [h]
  rfl

@[simp] theorem continuosDirectRecord_stopIdleSource (dev : Device) (s : String) (m : Media) :
    (m.stopIdleSource dev s).continuosDirectRecord = m.continuosDirectRecord := by
  obtain h | h := m.stopIdleSource_eq dev s <;> rw [h]

theorem stopServerByEvent_sinks (dev : Device) (s : String) (m : Media) :
    (m.stopServerByEvent dev s).publisher.activeSinks = (m.publisher.unpublish s).activeSinks ∧
      (m.stopServerByEvent dev s).publisher.sinkStarted = (m.publisher.unpublish s).sinkStarted ∧
      (m.stopServerByEvent dev s).continuosDirectRecord = m.continuosDirectRecord := by
  unfold stopServerByEvent
  split_ifs <;> simp

/-- What `on_stream_stop` does to the sinks for the reasons that publish. -/
theorem onStreamStop_sinks (env : Env) (hr : publishes reason = true) (hd : m.continuosDirectRecord = false)
    (hs : (dev.lookupStream streamId).isSome) :
    (m.onStreamStop dev env streamId reason).publisher.activeSinks =
        (m.publisher.unpublish streamId).activeSinks ∧
      (m.onStreamStop dev env streamId reason).publisher.sinkStarted =
        (m.publisher.unpublish streamId).sinkStarted ∧
      (m.onStreamStop dev env streamId reason).continuosDirectRecord = false := by
  obtain ⟨stream, hstream⟩ := Option.isSome_iff_exists.mp hs
  obtain rfl := cloudName_of_lookupStream hstream
  have hstop := stopServerByEvent_sinks dev stream.cloudName m
  rw [hd] at hstop
  unfold onStreamStop
  simp only [hstream]
  cases reason with
  | live => simp [stopLive, hd]
  | record =>
    simp only [stopRecord, hd, Bool.false_eq_true, if_false]
    exact hstop
  | serverByEvent => exact hstop
  | recordByEvent => simp [publishes] at hr
  | recordDirect => simp [publishes] at hr
  | invalid => simp [publishes] at hr

end Media

/-! ### Runs of starts and stops -/

/-- A call of `on_stream_start` or `on_stream_stop`, with the answers of the surroundings. -/
inductive StreamCall
  | start (env : Env) (streamId : String) (reason : StreamReason)
  | stop (env : Env) (streamId : String) (reason : StreamReason)

/-- The media side, with the successful starts and the stops of each stream. -/
structure SinkSession where
  media : Media
  starts : String → ℕ
  stops : String → ℕ

theorem front_ne_empty : "front" ≠ "" := by simp

theorem rear_ne_empty : "rear" ≠ "" := by simp

/-- A device with two streams and no event streams. -/
def twoStreams : Device where
  streams := [⟨"front", true, front_ne_empty⟩, ⟨"rear", true, rear_ne_empty⟩]
  eventStreams := []
  eventStreams_nodup := List.nodup_nil

/-- A device with two streams that can record by events. -/
def twoStreamsByEvent : Device :=
  { twoStreams with
    eventStreams := [⟨"camera", some []⟩]
    eventStreams_nodup := by decide }

/-- Everything that is asked to start does start. -/
def Env.working : Env where
  now := seconds 1000
  startSource _ := true
  startSink _ := true
  startRecord _ := true
  memorycardInfo := some { status := .normal }

namespace SinkSession

/-- Starts and stops for the reasons that publish; a stop needs a successful start before it. -/
def step (dev : Device) (lookup : EventObject → Option EventConfig) (u : SinkSession) :
    StreamCall → Option SinkSession
  | .start env streamId reason =>
    if publishes reason then
      let r := u.media.onStreamStart dev env lookup streamId reason
      some { u with
        media := r.2
        starts := Function.update u.starts streamId (u.starts streamId + r.1.toNat) }
    else none
  | .stop env streamId reason =>
    if publishes reason && decide (u.stops streamId < u.starts streamId) then
      some { u with
        media := u.media.onStreamStop dev env streamId reason
        stops := Function.update u.stops streamId (u.stops streamId + 1) }
    else none

/-- Nothing was started yet. -/
def start (dev : Device) : SinkSession := ⟨Media.start dev, fun _ => 0, fun _ => 0⟩

/-- The sink of each stream runs exactly as long as starts outnumber stops. -/
def Counted (u : SinkSession) : Prop :=
  ∀ s, s ∈ u.media.publisher.sinkStarted ↔ u.stops s < u.starts s

/-- Where a start finds a source, no other stream is published; a stop is that of the only start of its
stream that still waits for one. -/
def OneAtATime (dev : Device) (u : SinkSession) : StreamCall → Prop
  | .start env streamId reason =>
    u.media.sourceStarts dev env streamId reason = true →
      ∀ r ∈ u.media.publisher.sinkStarted, r = streamId
  | .stop _ streamId _ => u.starts streamId = u.stops streamId + 1

instance (dev : Device) (u : SinkSession) (a : StreamCall) : Decidable (u.OneAtATime dev a) := by
  cases a <;> unfold OneAtATime <;> infer_instance

variable {dev : Device} {lookup : EventObject → Option EventConfig} {u v : SinkSession} {a : StreamCall}
  {as : List StreamCall}

/-- What holds as long as one stream is published at a time. -/
structure Inv (dev : Device) (u : SinkSession) : Prop where
  noDirect : u.media.continuosDirectRecord = false
  le : ∀ s, u.stops s ≤ u.starts s
  known : ∀ s, u.stops s < u.starts s → (dev.lookupStream s).isSome
  one : u.media.publisher.OneSink fun s => u.starts s - u.stops s

theorem Inv.counted (h : u.Inv dev) : u.Counted := fun s => (h.one.mem_iff s).trans Nat.sub_pos_iff_lt

theorem Inv.init (dev : Device) : (start dev).Inv dev where
  noDirect := rfl
  le := fun _ => le_rfl
  known := fun _ h => absurd h (lt_irrefl 0)
  one := .inl ⟨rfl, rfl, fun _ => rfl⟩

/-- A start that is counted has found its stream. -/
theorem known_of_start {env : Env} {streamId : String} {reason : StreamReason} {m : Media}
    (h : (m.onStreamStart dev env lookup streamId reason).1 = true) : (dev.lookupStream streamId).isSome := by
  unfold Media.onStreamStart at h
  cases hs : dev.lookupStream streamId with
  | none => simp [hs] at h
  | some stream => rfl

/-- The starts that wait for a stop, after one more start. -/
theorem waiting_start (h : ∀ s, u.stops s ≤ u.starts s) (streamId : String) (k : ℕ) :
    (fun s => Function.update u.starts streamId (u.starts streamId + k) s - u.stops s) =
      Function.update (fun s => u.starts s - u.stops s) streamId (u.starts streamId - u.stops streamId + k) := by
  funext s
  by_cases hs : s = streamId
  · subst hs
    have := h s
    simp only [Function.update_self]
    omega
  · simp [hs]

theorem inv_start {env : Env} {streamId : String} {reason : StreamReason} (h : u.Inv dev)
    (hok : u.OneAtATime dev (.start env streamId reason))
    (hs : u.step dev lookup (.start env streamId reason) = some v) : v.Inv dev := by
  simp only [step] at hs
  split_ifs at hs with hr
  obtain rfl := Option.some.inj hs
  obtain ⟨hd, hcase⟩ := Media.onStreamStart_sinks dev env lookup streamId u.media hr
  refine ⟨hd.trans h.noDirect, fun s => ?_, fun s hlt => ?_, ?_⟩
  · by_cases hs : s = streamId
    · subst hs
      simpa using Nat.le_add_right_of_le (h.le s)
    · simpa [hs] using h.le s
  · by_cases hs : s = streamId
    · subst hs
      cases hres : (u.media.onStreamStart dev env lookup s reason).1 with
      | false => exact h.known s (by simpa [hres] using hlt)
      | true => exact known_of_start hres
    · exact h.known s (by simpa [hs] using hlt)
  · dsimp only
    rw [waiting_start h.le]
    obtain ⟨hskip, -⟩ | ⟨hres, hpub, hsrc⟩ := hcase
    · rw [hskip]
      simpa using h.one
    · rw [hpub, hres]
      exact h.one.start fun hst => hok (hsrc.trans hst)

theorem inv_stop {env : Env} {streamId : String} {reason : StreamReason} (h : u.Inv dev)
    (hok : u.OneAtATime dev (.stop env streamId reason))
    (hs : u.step dev lookup (.stop env streamId reason) = some v) : v.Inv dev := by
  simp only [step, Bool.and_eq_true, decide_eq_true_eq] at hs
  split_ifs at hs with hr
  obtain ⟨hr, hlt⟩ := hr
  obtain rfl := Option.some.inj hs
  obtain ⟨ha, hsink, hd⟩ := Media.onStreamStop_sinks env hr h.noDirect (h.known streamId hlt)
  obtain ⟨hzero, hempty, hrest⟩ := h.one.unpublish (Nat.sub_pos_of_lt hlt)
  have hwait : ∀ s, u.starts s ≤ Function.update u.stops streamId (u.stops streamId + 1) s := by
    intro s
    by_cases hs : s = streamId
    · subst hs
      simpa using Nat.le_of_eq hok
    · simpa [hs] using Nat.le_of_sub_eq_zero (hrest s hs)
  refine ⟨hd, fun s => ?_, fun s hlt => ?_, .inl ⟨ha.trans hzero, hsink.trans hempty, fun s => ?_⟩⟩
  · by_cases hs : s = streamId
    · subst hs
      simpa using Nat.succ_le_of_lt hlt
    · simpa [hs] using h.le s
  · exact absurd hlt (hwait s).not_gt
  · exact Nat.sub_eq_zero_of_le (hwait s)

theorem inv_step (h : u.Inv dev) (hok : u.OneAtATime dev a) (hs : u.step dev lookup a = some v) : v.Inv dev := by
  cases a with
  | start env streamId reason => exact inv_start h hok hs
  | stop env streamId reason => exact inv_stop h hok hs

/-- A start while another stream is published stays without a sink, and a stop with other starts of
its stream still waiting takes their sink away. -/
theorem not_counted_step (h : u.Inv dev) (hok : ¬ u.OneAtATime dev a)
    (hs : u.step dev lookup a = some v) : ¬ v.Counted := by
  intro hv
  cases a with
  | start env streamId reason =>
    simp only [step] at hs
    split_ifs at hs with hr
    obtain rfl := Option.some.inj hs
    simp only [OneAtATime, Classical.not_imp] at hok
    obtain ⟨hstart, hother⟩ := hok
    obtain ⟨-, ⟨-, hno⟩ | ⟨hres, hpub, hsrc⟩⟩ := Media.onStreamStart_sinks dev env lookup
      streamId u.media hr
    · simp [hno] at hstart
    · obtain ⟨htrue, hnot⟩ := h.one.start_skips (hsrc.symm.trans hstart) hother
      have := hv streamId
      simp only [hpub, hnot, hres, htrue, Function.update_self, Bool.toNat_true, false_iff, not_lt] at this
      have := h.le streamId
      omega
  | stop env streamId reason =>
    simp only [step, Bool.and_eq_true, decide_eq_true_eq] at hs
    split_ifs at hs with hr
    obtain ⟨hr, hlt⟩ := hr
    obtain rfl := Option.some.inj hs
    obtain ⟨-, hsink, -⟩ := Media.onStreamStop_sinks env hr h.noDirect (h.known streamId hlt)
    obtain ⟨-, hempty, -⟩ := h.one.unpublish (Nat.sub_pos_of_lt hlt)
    have := hv streamId
    simp only [hsink, hempty, Finset.notMem_empty, Function.update_self, false_iff, not_lt] at this
    exact hok (show u.starts streamId = u.stops streamId + 1 by omega)

/-- In every run the sinks are counted after each call if and only if one stream at a time is started,
and is not stopped while another start of it waits for its stop. -/
theorem sinks_counted_iff (he : exec (step dev lookup) (start dev) as = some v) :
    Throughout (step dev lookup) Counted (start dev) as ↔ Meets (step dev lookup) (OneAtATime dev) (start dev) as :=
  throughout_iff_meets (L := fun _ => True) (fun _ _ _ h _ => inv_step h) (fun _ => Inv.counted)
    (fun _ _ _ h _ => not_counted_step h) (Inv.init dev) (fun _ _ => trivial) he

/-- Two live sessions of different streams, one after the other. -/
theorem sinks_counted_one_by_one : ∃ v,
    exec (step twoStreams fun _ => none) (start twoStreams)
        [.start .working "front" .live, .stop .working "front" .live, .start .working "rear" .record] = some v ∧
      Throughout (step twoStreams fun _ => none) Counted (start twoStreams)
        [.start .working "front" .live, .stop .working "front" .live, .start .working "rear" .record] := by
  obtain ⟨v, hv⟩ : ∃ v, exec (step twoStreams fun _ => none) (start twoStreams)
      [.start .working "front" .live, .stop .working "front" .live, .start .working "rear" .record] = some v :=
    ⟨_, rfl⟩
  exact ⟨v, hv, (sinks_counted_iff hv).mpr (by decide +kernel)⟩

/-- The end of live viewing stops the sink while the stream is still recorded. -/
theorem live_stop_kills_record : ∃ v,
    exec (step twoStreams fun _ => none) (start twoStreams)
        [.start .working "front" .live, .start .working "front" .record, .stop .working "front" .live] = some v ∧
      v.starts "front" = 2 ∧ v.stops "front" = 1 ∧ "front" ∉ v.media.publisher.sinkStarted ∧ ¬ v.Counted := by
  obtain ⟨v, hv⟩ : ∃ v, exec (step twoStreams fun _ => none) (start twoStreams)
      [.start .working "front" .live, .start .working "front" .record, .stop .working "front" .live] = some v :=
    ⟨_, rfl⟩
  have hend : ∀ w ∈ exec (step twoStreams fun _ => none) (start twoStreams)
      [.start .working "front" .live, .start .working "front" .record, .stop .working "front" .live],
      w.starts "front" = 2 ∧ w.stops "front" = 1 ∧ "front" ∉ w.media.publisher.sinkStarted := by decide +kernel
  obtain ⟨hstarts, hstops, hsink⟩ := hend v hv
  refine ⟨v, hv, hstarts, hstops, hsink, fun hcounted => hsink ((hcounted "front").mpr ?_)⟩
  rw [hstarts, hstops]
  decide

end SinkSession
end CloudAgent.Control
