import CloudAgent.Agent.Segmenter
import CloudAgent.Net.LwsCommon

/-! The segmented uploader: its shared state, the callbacks that run one at a time on its
transport thread, and the steps of its clients. Segmenters are shared objects, so they live in a
heap and every container holds their identities. A client fills in a segmenter before it schedules
it, and nothing touches it in between, so every segmenter of a run is in the heap from the start. -/
namespace CloudAgent.Agent
open Utils

/-- The identity of a shared segmenter object. -/
abbrev SegId := ℕ

/-- The values of `memorycard_sync_status` that the uploader sends. -/
inductive MemorycardSyncStatus
  | done | pending | error | canceled
  deriving DecidableEq, Repr

/-- Every value but `pending` assumes completion or impossibility of the operation. -/
def MemorycardSyncStatus.terminal (m : MemorycardSyncStatus) : Bool := m ≠ .pending

/-- The values after which the uploader clears the ticket. -/
def MemorycardSyncStatus.closing (m : MemorycardSyncStatus) : Bool := m = .done || m = .error

/-- `cam_memorycard_synchronize_status`. -/
structure SynchronizeStatus where
  camId : ℤ
  requestId : String
  progress : ℕ
  status : MemorycardSyncStatus
  deriving DecidableEq, Repr

/-- A record request handed to `direct_upload_cb_`. Its `on_finished` and `is_canceled` callbacks
capture the segmenter; its `file_time` is the start of the clip. -/
structure UploadRequest where
  segment : SegId
  tpStart : Time
  tpStop : Time
  duration : ℤ
  durationUs : ℤ
  size : ℕ
  streamId : String
  memorycardSyncTicket : String
  deriving DecidableEq, Repr

/-- The callbacks that the uploader hands to `schedule_timed_cb`. -/
inductive UploaderCb
  | asyncLoop
  | segmenterEnqueue (s : SegId)
  | segmenterFinalize (s : SegId) (stop : Time)
  | segmenterCancelByTicket (ticket : String)
  deriving DecidableEq, Repr

/-- What the surroundings answer during one tick of the loop. -/
structure TickEnv where
  now : Time
  storageObjects : Time → Time → List (Time × Time)
  recordGetList : String → Time → Time → List VideoClipInfo

/-- Surroundings that export exactly the requested window and store the same objects throughout. -/
def TickEnv.exact (objects : List (Time × Time)) : TickEnv where
  now := 0
  storageObjects _ _ := objects
  recordGetList _ start stop := [{ tpStart := start, tpStop := stop }]

/-- `planned`, `sent` and `reported` record what was handed to `direct_upload_cb_` and
`send_command_cb_` and which planned uploads have called `on_finished`. -/
structure SegmentedUploader where
  camId : ℤ
  heap : SegId → Segmenter
  segmenters : List SegId
  scheduledSyncStarts : SegId → Option ℕ
  http : Net.LwsCommon UploaderCb
  loop : ℕ
  canceledTickets : List String
  planned : List UploadRequest
  sent : List (SegId × SynchronizeStatus)
  reported : List ℕ

namespace SegmentedUploader

/-- Write back one segmenter object. -/
@[simps segmenters scheduledSyncStarts http canceledTickets planned sent reported]
def setSeg (u : SegmentedUploader) (s : SegId) (x : Segmenter) : SegmentedUploader :=
  { u with heap := fun j => if j = s then x else u.heap j }

@[simp] theorem setSeg_heap_self (u : SegmentedUploader) (s : SegId) (x : Segmenter) :
    (u.setSeg s x).heap s = x := by simp [setSeg]

theorem setSeg_heap (u : SegmentedUploader) (s j : SegId) (x : Segmenter) :
    (u.setSeg s x).heap j = if j = s then x else u.heap j := rfl

@[simp] theorem setSeg_heap_of_ne (u : SegmentedUploader) {s j : SegId} (x : Segmenter) (h : j ≠ s) :
    (u.setSeg s x).heap j = u.heap j := if_neg h

@[simp] theorem setSeg_setSeg (u : SegmentedUploader) (s : SegId) (x y : Segmenter) :
    (u.setSeg s x).setSeg s y = u.setSeg s y := by
  simp only [setSeg, SegmentedUploader.mk.injEq, true_and, and_true]
  funext j
  split <;> rfl

@[simp] theorem setSeg_self (u : SegmentedUploader) (s : SegId) : u.setSeg s (u.heap s) = u := by
  simp only [setSeg]
  congr 1
  funext j
  split
  · rename_i hj
    rw [hj]
  · rfl

/-! ### Status messages -/

/-- The status that `__send_timeline_synchronization_status` picks. -/
def syncStatus (x : Segmenter) : MemorycardSyncStatus :=
  if x.canceled then .canceled
  else if x.processed && x.answered then (if x.uploadsDone = 0 then .error else .done)
  else .pending

/-- The message about a segmenter, which reports full progress once the synchronization is over. -/
def statusMessage (u : SegmentedUploader) (progress : ℕ) (x : Segmenter) : SynchronizeStatus where
  camId := u.camId
  requestId := x.ticket
  progress := if (syncStatus x).closing then 100 else min 100 progress
  status := syncStatus x

/-- Removing the ticket from `canceled_tickets` marks the segmenter as canceled. -/
def markCanceled (u : SegmentedUploader) (x : Segmenter) : Segmenter :=
  x.withReport (x.canceled || u.canceledTickets.contains x.ticket) x.ticket

/-- `__send_timeline_synchronization_status`. A segmenter without a ticket reports nothing, and
the ticket is cleared once the synchronization is done or failed. -/
def sendTimelineSynchronizationStatus (u : SegmentedUploader) (progress : ℕ) (s : SegId) :
    SegmentedUploader :=
  let x := u.markCanceled (u.heap s)
  if x.ticket = "" then u
  else
    { u.setSeg s (x.withReport x.canceled (if (syncStatus x).closing then "" else x.ticket)) with
      canceledTickets := u.canceledTickets.filter (· ≠ x.ticket)
      sent := u.sent ++ [(s, u.statusMessage progress x)] }

/-- The progress that an answer reports: nothing while uploads are still being planned. -/
def syncProgress (x : Segmenter) : ℕ :=
  if x.processed then (x.uploadsDone + x.uploadsFailed) * 100 / x.uploadsPlanned else 0

/-- The `on_finished` callback that `__handle_timeline_synchronization_status` installs. -/
def onFinished (u : SegmentedUploader) (s : SegId) (ok : Bool) : SegmentedUploader :=
  let x := (u.heap s).countAnswer ok
  let u := u.setSeg s (x.withState x.processed (x.processed && x.answered))
  if x.ticket = "" then u else u.sendTimelineSynchronizationStatus (syncProgress x) s

/-! ### Choosing and adjusting the current segmenter -/

/-- The order of `__seg_compare`. -/
def segKey (u : SegmentedUploader) (s : SegId) : Time := (u.heap s).beginTime

/-- The segmenters that `__purge_segmenters` keeps: the first `toFree` removable ones go. -/
def purge (removable : SegId → Bool) : ℕ → List SegId → List SegId
  | 0, l => l
  | _ + 1, [] => []
  | n + 1, s :: l => if removable s then purge removable n l else s :: purge removable (n + 1) l

/-- `__purge_segmenters`. -/
def purgeSegmenters (u : SegmentedUploader) (finished processed : Bool) (num : ℕ) : SegmentedUploader :=
  let removable (s : SegId) : Bool :=
    (finished && (u.heap s).finished) || (!finished && (processed && (u.heap s).processed)) ||
      (!finished && !processed)
  { u with segmenters := purge removable (min num u.segmenters.length) u.segmenters }

/-- `__get_current`: canceled segmenters go, the others are sorted by begin time, the first one
that is not processed is current, and half of the finished ones before it are freed. -/
def getCurrent (std : StdSort) (u : SegmentedUploader) : Option SegId × SegmentedUploader :=
  if u.segmenters.isEmpty then (none, u)
  else
    let listed := std.sort u.segKey (u.segmenters.filter fun s => !(u.heap s).canceled)
    let before := listed.takeWhile fun s => (u.heap s).processed
    let numFinished := before.countP fun s => (u.heap s).finished
    (listed[before.length]?,
      { u with segmenters := listed }.purgeSegmenters true true (numFinished / 2))

/-- The listed segmenters other than `s`, in order. -/
def others (u : SegmentedUploader) (s : SegId) : List Segmenter :=
  (u.segmenters.filter (· ≠ s)).map u.heap

/-- The body of `__adjust_segmenters_current_to_finished` for the current segmenter. -/
def adjustCurrent (u : SegmentedUploader) (s : SegId) : Bool × SegmentedUploader :=
  let (x, outside) := (u.heap s).adjustTo (u.others s)
  if outside then
    (true, (u.setSeg s (x.withState true true)).sendTimelineSynchronizationStatus 100 s)
  else (false, u.setSeg s x)

/-- `__adjust_segmenters_current_to_finished`; the flag asks the caller to call again. -/
def adjustSegmentersCurrentToFinished (std : StdSort) (u : SegmentedUploader) :
    Bool × SegmentedUploader :=
  match u.getCurrent std with
  | (none, u) => (false, u)
  | (some s, u) => u.adjustCurrent s

/-- The adjusting loop of a tick, with a bound on the number of its iterations. -/
def adjustLoop (std : StdSort) : ℕ → SegmentedUploader → SegmentedUploader
  | 0, u => u
  | n + 1, u =>
    match u.adjustSegmentersCurrentToFinished std with
    | (true, u') => adjustLoop std n u'
    | (false, u') => u'

/-! ### Windows -/

/-- `__check_clip_segment`; the flag tells whether the current window is to be uploaded. -/
def checkClipSegment (std : StdSort) (env : TickEnv) (u : SegmentedUploader) (s : SegId) :
    Bool × SegmentedUploader :=
  let x := u.heap s
  let c := x.checkSlices true
    (timelineSlices std (env.storageObjects x.curSegStart x.curSegStop))
  if c.alreadyOnCloud then
    let u := u.setSeg s (c.window.withState true true)
    (false, if c.window.uploadsPlanned = 0 then u.sendTimelineSynchronizationStatus 100 s else u)
  else (c.uploadCurrentWindow, u.setSeg s c.window)

/-- The `get_direct_upload_url` for one exported clip. -/
def uploadRequest (s : SegId) (x : Segmenter) (clip : VideoClipInfo) : UploadRequest where
  segment := s
  tpStart := clip.tpStart
  tpStop := clip.tpStop
  duration := Duration.toMilliseconds (clip.tpStop - clip.tpStart)
  durationUs := Duration.toMicroseconds (clip.tpStop - clip.tpStart)
  size := clip.data.length
  streamId := x.segProvider
  memorycardSyncTicket := x.ticket

/-- A planned upload is counted and handed to `direct_upload_cb_`. -/
def planUpload (u : SegmentedUploader) (s : SegId) (clip : VideoClipInfo) : SegmentedUploader :=
  { u.setSeg s (u.heap s).countPlanned with
    planned := u.planned ++ [uploadRequest s (u.heap s).countPlanned clip] }

theorem planUpload_setSeg (u : SegmentedUploader) (s : SegId) (x : Segmenter) (clip : VideoClipInfo) :
    (u.setSeg s x).planUpload s clip =
      { u.setSeg s x.countPlanned with planned := u.planned ++ [uploadRequest s x clip] } := by
  simp only [planUpload, setSeg_heap_self, setSeg_setSeg, setSeg_planned]
  rfl

/-- The clip that the provider exports for a window: the first of its list, or an empty value. -/
def exportClip (env : TickEnv) (x : Segmenter) : VideoClipInfo :=
  (env.recordGetList x.segProvider x.curSegStart x.curSegStop).head?.getD {}

/-- `__segment_step`, for the upload window left by `__check_clip_segment`. The clock is read once. -/
def segmentStep (env : TickEnv) (u : SegmentedUploader) (s : SegId) : SegmentedUploader :=
  if (u.heap s).processed || (u.heap s).canceled then u
  else
    let x := (u.heap s).withWindow (u.heap s).curSegStart (u.heap s).clippedStop
    if !x.isOpen && x.curSegStart ≥ x.lastTime then
      -- outside of the borders: nothing is left to do, finished or not
      if x.uploadsPlanned = 0 then
        (u.setSeg s (x.withState true true)).sendTimelineSynchronizationStatus 0 s
      else u.setSeg s (x.withState true x.finished)
    else if x.curSegStart = x.curSegStop then
      u.setSeg s (x.withWindow x.curSegStart (x.curSegStart + x.step))
    else
      let clip := exportClip env x
      let x' := x.takeWindow env.now clip
      if clip.valid then (u.setSeg s x').planUpload s clip
      else if x'.processed && x'.uploadsPlanned = 0 then
        (u.setSeg s (x'.withState x'.processed true)).sendTimelineSynchronizationStatus 0 s
      else u.setSeg s x'

/-- What one tick does with the current segmenter. -/
def processCurrent (std : StdSort) (env : TickEnv) (u : SegmentedUploader) (s : SegId) :
    SegmentedUploader :=
  match u.checkClipSegment std env s with
  | (true, u) => u.segmentStep env s
  | (false, u) => u

/-- `__async_loop`, up to the delay for which it schedules itself again. Each iteration of the
adjusting loop but the last marks a listed segmenter as processed, which bounds their number. -/
def tick (std : StdSort) (env : TickEnv) (u : SegmentedUploader) : SegmentedUploader × Duration :=
  let u := adjustLoop std (u.segmenters.length + 1) u
  if u.segmenters.isEmpty then (u, seconds 1)
  else
    match u.getCurrent std with
    | (none, u) => (u, seconds 1)
    | (some s, u) =>
      let u := u.processCurrent std env s
      (u, if (u.heap s).processed then seconds 1 else (u.heap s).delay)

def asyncLoop (std : StdSort) (env : TickEnv) (u : SegmentedUploader) : SegmentedUploader :=
  let (u, delay) := u.tick std env
  let (loop, http) := u.http.scheduleTimedCb .asyncLoop (Duration.toTimeout delay)
  { u with loop, http }

/-! ### Callbacks and client calls -/

/-- `__segmenter_enqueue`. -/
def segmenterEnqueue (std : StdSort) (u : SegmentedUploader) (s : SegId) : SegmentedUploader :=
  { u with
    scheduledSyncStarts := fun j => if j = s then none else u.scheduledSyncStarts j
    segmenters := std.sort u.segKey (u.segmenters ++ [s]) }

/-- `__segmenter_finalize`. -/
def segmenterFinalize (u : SegmentedUploader) (s : SegId) (stop : Time) : SegmentedUploader :=
  u.setSeg s { u.heap s with endTime := stop }

/-- The body of the loop in `__segmenter_cancel_by_ticket`. -/
def cancelSegmenter (u : SegmentedUploader) (s : SegId) : SegmentedUploader :=
  let u := u.setSeg s (((u.heap s).withState true true).withReport true (u.heap s).ticket)
  let u :=
    match u.scheduledSyncStarts s with
    | some t =>
      { u with
        http := u.http.cancelTimedCb t
        scheduledSyncStarts := fun j => if j = s then none else u.scheduledSyncStarts j }
    | none => u
  u.sendTimelineSynchronizationStatus 100 s

/-- The loop of `__segmenter_cancel_by_ticket`. Every search starts at the front again, where the
segmenters already visited are canceled or have another ticket. -/
def cancelFrom (ticket : String) : List SegId → SegmentedUploader → SegmentedUploader
  | [], u => u
  | s :: l, u =>
    cancelFrom ticket l
      (if ticket = (u.heap s).ticket && !(u.heap s).canceled then u.cancelSegmenter s else u)

/-- `__segmenter_cancel_by_ticket`. -/
def segmenterCancelByTicket (u : SegmentedUploader) (ticket : String) : SegmentedUploader :=
  if ticket = "" then u
  else
    let u := cancelFrom ticket u.segmenters u
    { u with canceledTickets := u.canceledTickets ++ [ticket] }

/-- Run a callback that has just fired. -/
def runCb (std : StdSort) (env : TickEnv) (u : SegmentedUploader) : UploaderCb → SegmentedUploader
  | .asyncLoop => u.asyncLoop std env
  | .segmenterEnqueue s => u.segmenterEnqueue std s
  | .segmenterFinalize s stop => u.segmenterFinalize s stop
  | .segmenterCancelByTicket ticket => u.segmenterCancelByTicket ticket

/-- `schedule_upload`. -/
def scheduleUpload (u : SegmentedUploader) (s : SegId) : SegmentedUploader :=
  let (t, http) := u.http.scheduleTimedCb (.segmenterEnqueue s) (Duration.toTimeout (u.heap s).delay)
  { u with http, scheduledSyncStarts := fun j => if j = s then some t else u.scheduledSyncStarts j }

/-- `finalize_upload`. -/
def finalizeUpload (u : SegmentedUploader) (s : SegId) (stop : Time) : SegmentedUploader :=
  { u with http := (u.http.scheduleTimedCb (.segmenterFinalize s stop) 0).2 }

/-- `cancel_upload`. -/
def cancelUpload (u : SegmentedUploader) (ticket : String) : SegmentedUploader :=
  { u with http := (u.http.scheduleTimedCb (.segmenterCancelByTicket ticket) 0).2 }

/-- The uploader after its constructor and `start`, which schedules the first tick. -/
def start (camId : ℤ) (created : SegId → NewSegmenter) : SegmentedUploader :=
  let (loop, http) := Net.LwsCommon.empty.scheduleTimedCb UploaderCb.asyncLoop 1
  { camId, http, loop
    heap := fun s => (created s).1
    segmenters := []
    scheduledSyncStarts := fun _ => none
    canceledTickets := []
    planned := []
    sent := []
    reported := [] }

/-- Everything that can happen to a running uploader. `fire t` is the timer `t` going off while the
surroundings answer as `env` says, `reportFinished k` the `on_finished` callback of the `k`-th
planned upload. -/
inductive Action
  | scheduleUpload (s : SegId)
  | finalizeUpload (s : SegId) (stop : Time)
  | cancelUpload (ticket : String)
  | fire (t : ℕ) (env : TickEnv)
  | reportFinished (k : ℕ) (ok : Bool)

/-- One atomic step of the system. -/
def step (std : StdSort) (u : SegmentedUploader) : Action → Option SegmentedUploader
  | .scheduleUpload s => some (u.scheduleUpload s)
  | .finalizeUpload s stop => some (u.finalizeUpload s stop)
  | .cancelUpload ticket => some (u.cancelUpload ticket)
  | .fire t env => (u.http.sulCb t).map fun (cb, http) => { u with http }.runCb std env cb
  | .reportFinished k ok =>
    u.planned[k]?.map fun r => { u.onFinished r.segment ok with reported := k :: u.reported }

end SegmentedUploader
end CloudAgent.Agent
