import CloudAgent.Lib.StdMap
import CloudAgent.Lib.Transition
import CloudAgent.Proto.DirectUpload
import CloudAgent.Utils.IsoPacked

/-! The service that opens reverse tunnels on request: a client asks for a key, then for a tunnel with it; a tunnel is
closed on request, or by the thread that looks for expired ones. Requests are handled one at a time, and the thread
comes in between. -/
namespace CloudAgent.Platform
open Transition

inductive PortForwardCmd
  | getKey | createTunnel | deleteTunnel | invalid
  deriving DecidableEq, Repr

inductive PortForwardStatus
  | ok | error | notAllowed | invalid
  deriving DecidableEq, Repr

inductive TunnelStatus
  | idle | ok | sshConnFailed | sshTunnFailed | closed | expired | invalid
  deriving DecidableEq, Repr

/-- The text of a status as a JSON value. -/
def TunnelStatus.dump : TunnelStatus → String
  | .idle => "\"Tunnel is not started yet\""
  | .ok => "\"Tunnel Opened\""
  | .sshConnFailed => "\"Failed to connect to ssh server.\""
  | .sshTunnFailed => "\"Tunnel creation failed.\""
  | .closed => "\"Tunnel closed by server.\""
  | .expired => "\"Tunnel timed out.\""
  | .invalid => "null"

structure PortForwardParams where
  camIp : String
  camPort : ℤ
  portOut : ℤ
  user : String
  host : String
  timeout : ℤ
  deriving DecidableEq, Repr

/-- A request. `params` is what is read from `data`, also if that is null. -/
structure PortForwardMessage where
  cmd : PortForwardCmd
  msgid : ℤ
  dataNull : Bool
  params : PortForwardParams
  deriving DecidableEq, Repr

structure PortForwardReply where
  refid : ℤ
  status : PortForwardStatus := .invalid
  text : String := Proto.unsetString
  key : String := Proto.unsetString
  deriving DecidableEq, Repr

/-- `reverse_tunnel::params`, as far as they are filled in. -/
structure TunnelParams where
  sshServer : String
  sshServerUsername : String
  sshPrivateKey : String
  sshPublicKey : String
  localDestIp : String
  localDestPort : UInt16
  remoteListenPort : UInt16
  timeout : ℤ
  deriving DecidableEq, Repr

/-- A `tunnel` of the map; `ssh` tells which one of those that were made it has. -/
structure Tunnel where
  clientId : String
  ssh : ℕ
  creationTime : ℤ
  timeout : ℤ
  deriving DecidableEq, Repr

/-- A tunnel that was made: for whom, with which parameters, after how many keys, and whether it started. -/
structure MadeTunnel where
  clientId : String
  params : TunnelParams
  camPort : ℤ
  createdAt : ℤ
  keysBefore : ℕ
  started : Bool
  deriving DecidableEq, Repr

/-- A call of `stop` of a tunnel, with the time at which it was found expired, or by its destructor. -/
structure StopCall where
  ssh : ℕ
  expiredAt : Option ℤ
  destroyed : Bool
  deriving DecidableEq, Repr

/-- `reverse_tunneling`: the key pairs that wait for a tunnel, and the tunnels. The others remember which key pairs were
generated and which tunnels were made and stopped. -/
structure ReverseTunneling where
  keypairs : StdMap (String × String) := ∅
  tunnels : StdMap Tunnel := ∅
  generated : List (String × String × String) := []
  made : List MadeTunnel := []
  stops : List StopCall := []

/-- What a request finds: the key pair that is generated, the clock, whether the tunnel starts, and its status then. -/
structure HandleEnv where
  keypair : String × String
  now : ℤ
  start : Bool
  status : TunnelStatus
  deriving DecidableEq, Repr

/-- The key of a tunnel in the map. -/
def tunnelKey (camIp : String) (camPort : ℤ) : String :=
  String.ofList (camIp.toList ++ ':' :: Utils.decimal camPort)

def MadeTunnel.keypair (x : MadeTunnel) : String × String := (x.params.sshPrivateKey, x.params.sshPublicKey)

def MadeTunnel.key (x : MadeTunnel) : String := tunnelKey x.params.localDestIp x.camPort

namespace ReverseTunneling

/-- `PF_GET_KEY`. -/
def getKey (publicPem2ssh : String → String) (rt : ReverseTunneling) (clientId : String) (msgid : ℤ) (env : HandleEnv) :
    ReverseTunneling × PortForwardReply :=
  ({ rt with
      keypairs := rt.keypairs.insert clientId env.keypair
      generated := rt.generated ++ [(clientId, env.keypair)] },
    { refid := msgid, status := .ok, key := publicPem2ssh env.keypair.2 })

/-- A tunnel is made and started with the key pair, which is gone also if it does not start. Then nothing holds the
tunnel, and its destructor stops it. -/
def makeTunnel (rt : ReverseTunneling) (clientId : String) (keypair : String × String) (p : PortForwardParams)
    (env : HandleEnv) : ReverseTunneling :=
  let params : TunnelParams :=
    ⟨p.host, p.user, keypair.1, keypair.2, p.camIp, UInt16.ofInt p.camPort, UInt16.ofInt p.portOut, p.timeout⟩
  { rt with
    keypairs := rt.keypairs.erase clientId
    made := rt.made ++ [⟨clientId, params, p.camPort, env.now, rt.generated.length, env.start⟩]
    tunnels :=
      if env.start then rt.tunnels.insert (tunnelKey p.camIp p.camPort) ⟨clientId, rt.made.length, env.now, p.timeout⟩
      else rt.tunnels
    stops := if env.start then rt.stops else rt.stops ++ [⟨rt.made.length, none, true⟩] }

/-- `PF_CREATE_TUNNEL`. -/
def createTunnel (rt : ReverseTunneling) (clientId : String) (msgid : ℤ) (p : PortForwardParams) (env : HandleEnv) :
    ReverseTunneling × PortForwardReply :=
  let key := tunnelKey p.camIp p.camPort
  if key ∈ rt.tunnels then (rt, { refid := msgid, status := .error, text := "Tunnel " ++ key ++ " already exists." })
  else
    match rt.keypairs.lookup clientId with
    | none => (rt, { refid := msgid, status := .error, text := "Server should request key first" })
    | some keypair =>
      (rt.makeTunnel clientId keypair p env,
        { refid := msgid, status := if env.start then .ok else .error, text := env.status.dump })

/-- A tunnel is stopped and leaves the map, the last that held it, so that its destructor stops it again. -/
def stopTunnel (rt : ReverseTunneling) (key : String) (t : Tunnel) (expiredAt : Option ℤ) : ReverseTunneling :=
  { rt with
    tunnels := rt.tunnels.erase key
    stops := rt.stops ++ [⟨t.ssh, expiredAt, false⟩, ⟨t.ssh, none, true⟩] }

/-- `PF_DELETE_TUNNEL`. -/
def deleteTunnel (rt : ReverseTunneling) (msgid : ℤ) (dataNull : Bool) (p : PortForwardParams) :
    ReverseTunneling × PortForwardReply :=
  if dataNull then (rt, { refid := msgid, status := .error, text := "Unable to parse data field!" })
  else
    let victim := tunnelKey p.camIp p.camPort
    match rt.tunnels.lookup victim with
    | some t => (rt.stopTunnel victim t none, { refid := msgid, status := .ok, text := "Tunnel closed" })
    | none => (rt, { refid := msgid, status := .error, text := "Tunnel " ++ victim ++ " not found" })

/-- `handle`: the reply, unless the command was not parsed. -/
def handle (publicPem2ssh : String → String) (rt : ReverseTunneling) (clientId : String)
    (message : Option PortForwardMessage) (env : HandleEnv) : ReverseTunneling × Option PortForwardReply :=
  match message with
  | none => (rt, none)
  | some m =>
    match m.cmd with
    | .getKey => (rt.getKey publicPem2ssh clientId m.msgid env).map id some
    | .createTunnel => (rt.createTunnel clientId m.msgid m.params env).map id some
    | .deleteTunnel => (rt.deleteTunnel m.msgid m.dataNull m.params).map id some
    | .invalid => (rt, some { refid := m.msgid })

/-- `_expired`, at a time in nanoseconds. -/
def expired (now : ℤ) (t : Tunnel) : Bool := t.timeout * 1000000000 < now - t.creationTime

/-- A round of the loop of `_gc`, at the time that the clock shows there. -/
def gcVisit (now : String → ℤ) (rt : ReverseTunneling) (key : String) : ReverseTunneling :=
  match rt.tunnels.lookup key with
  | some t => if expired (now key) t then rt.stopTunnel key t (some (now key)) else rt
  | none => rt

/-- What `_gc` does while it has the lock. -/
def gc (now : String → ℤ) (rt : ReverseTunneling) : ReverseTunneling := rt.tunnels.order.foldl (gcVisit now) rt

inductive Event
  | handle (clientId : String) (message : Option PortForwardMessage) (env : HandleEnv)
  | gc (begins : ℤ) (now : String → ℤ)

def step (publicPem2ssh : String → String) (rt : ReverseTunneling) : Event → Option ReverseTunneling
  | .handle clientId message env => some (rt.handle publicPem2ssh clientId message env).1
  | .gc _ now => some (rt.gc now)

/-! ### What a request can do -/

variable {publicPem2ssh : String → String} {rt rt' : ReverseTunneling} {e : Event}

theorem handle_cases (publicPem2ssh : String → String) (rt : ReverseTunneling) (clientId : String)
    (message : Option PortForwardMessage) (env : HandleEnv) :
    (rt.handle publicPem2ssh clientId message env).1 = rt ∨
      (rt.handle publicPem2ssh clientId message env).1 =
        { rt with
          keypairs := rt.keypairs.insert clientId env.keypair
          generated := rt.generated ++ [(clientId, env.keypair)] } ∨
      (∃ p keypair, tunnelKey p.camIp p.camPort ∉ rt.tunnels ∧ rt.keypairs.lookup clientId = some keypair ∧
        (rt.handle publicPem2ssh clientId message env).1 = rt.makeTunnel clientId keypair p env) ∨
      ∃ key t, rt.tunnels.lookup key = some t ∧
        (rt.handle publicPem2ssh clientId message env).1 = rt.stopTunnel key t none := by
  cases message with
  | none => exact .inl rfl
  | some m =>
    cases hcmd : m.cmd with
    | invalid => simp [handle, hcmd]
    | getKey =>
      refine .inr (.inl ?_)
      simp [handle, hcmd, getKey]
    | createTunnel =>
      by_cases hkey : tunnelKey m.params.camIp m.params.camPort ∈ rt.tunnels
      · simp [handle, hcmd, createTunnel, hkey]
      · cases hpair : rt.keypairs.lookup clientId with
        | none => simp [handle, hcmd, createTunnel, hkey, hpair]
        | some keypair =>
          refine .inr (.inr (.inl ⟨m.params, keypair, hkey, rfl, ?_⟩))
          simp [handle, hcmd, createTunnel, hkey, hpair]
    | deleteTunnel =>
      cases hnull : m.dataNull with
      | true => simp [handle, hcmd, deleteTunnel, hnull]
      | false =>
        cases ht : rt.tunnels.lookup (tunnelKey m.params.camIp m.params.camPort) with
        | none => simp [handle, hcmd, deleteTunnel, hnull, ht]
        | some t =>
          refine .inr (.inr (.inr ⟨_, t, ht, ?_⟩))
          simp [handle, hcmd, deleteTunnel, hnull, ht]

/-- What `_gc` keeps if it keeps it with every tunnel that it stops. -/
theorem gc_preserves {P : ReverseTunneling → Prop} {now : String → ℤ}
    (hstop : ∀ {rt key t}, P rt → rt.tunnels.lookup key = some t → expired (now key) t = true →
      P (rt.stopTunnel key t (some (now key)))) (h : P rt) : P (rt.gc now) := by
  have hloop (keys : List String) : ∀ rt, P rt → P (keys.foldl (gcVisit now) rt) := by
    induction keys with
    | nil => exact fun _ h => h
    | cons key keys ih =>
      intro rt h
      apply ih
      rw [gcVisit]
      split
      · rename_i t ht
        split
        · rename_i hexpired
          exact hstop h ht hexpired
        · exact h
      · exact h
  exact hloop _ rt h

/-! ### Every tunnel that runs is in the map -/

/-- The tunnel was started, and nobody has stopped it. -/
def Running (rt : ReverseTunneling) (i : ℕ) (x : MadeTunnel) : Prop :=
  rt.made[i]? = some x ∧ x.started = true ∧ i ∉ rt.stops.map StopCall.ssh

/-- The calls of `stop` of a tunnel. -/
def stopsOf (rt : ReverseTunneling) (i : ℕ) : List StopCall := rt.stops.filter (·.ssh = i)

/-- How a tunnel was stopped: if it has started, not yet, or by a request or as expired and then by its destructor;
otherwise by its destructor alone. -/
def Stopped (rt : ReverseTunneling) (i : ℕ) (x : MadeTunnel) : Prop :=
  if x.started then
    rt.stopsOf i = [] ∨ ∃ expiredAt, rt.stopsOf i = [⟨i, expiredAt, false⟩, ⟨i, none, true⟩]
  else rt.stopsOf i = [⟨i, none, true⟩]

/-- The map has the tunnels that run, each one under its own address. -/
structure Tracked (rt : ReverseTunneling) : Prop where
  tracked : ∀ {key t}, rt.tunnels.lookup key = some t → ∃ x, rt.Running t.ssh x ∧ key = x.key ∧
    t.creationTime = x.createdAt ∧ t.timeout = x.params.timeout
  running : ∀ {i x}, rt.Running i x → ∃ t, rt.tunnels.lookup x.key = some t ∧ t.ssh = i
  stopped : ∀ {i x}, rt.made[i]? = some x → rt.Stopped i x
  made : ∀ s ∈ rt.stops, ∃ x, rt.made[s.ssh]? = some x ∧
    ∀ now ∈ s.expiredAt, x.params.timeout * 1000000000 < now - x.createdAt

theorem tracked_empty : ({} : ReverseTunneling).Tracked where
  tracked h := by cases h
  running h := by cases h.1
  stopped h := by cases h
  made _ h := by cases h

theorem stopsOf_eq_nil {i : ℕ} : rt.stopsOf i = [] ↔ i ∉ rt.stops.map StopCall.ssh := by
  simp [stopsOf]

/-- Only a tunnel that was made was stopped. -/
theorem Tracked.stop_lt (h : rt.Tracked) {i : ℕ} (hi : i ∈ rt.stops.map StopCall.ssh) : i < rt.made.length := by
  obtain ⟨s, hs, rfl⟩ := List.mem_map.mp hi
  obtain ⟨x, hx, -⟩ := h.made s hs
  exact (List.getElem?_eq_some_iff.mp hx).1

theorem Tracked.stopTunnel (h : rt.Tracked) {key : String} {t : Tunnel} (ht : rt.tunnels.lookup key = some t)
    {expiredAt : Option ℤ} (hexpired : ∀ now ∈ expiredAt, expired now t = true) :
    (rt.stopTunnel key t expiredAt).Tracked := by
  obtain ⟨x, hx, hkey, hcreation, htimeout⟩ := h.tracked ht
  have hrunning {i : ℕ} {y : MadeTunnel} : (rt.stopTunnel key t expiredAt).Running i y ↔
      rt.Running i y ∧ i ≠ t.ssh := by
    simp [Running, ReverseTunneling.stopTunnel, and_assoc]
  refine ⟨fun {k t'} ht' => ?_, fun {i y} hy => ?_, fun {i y} hy => ?_, fun s hs => ?_⟩
  · have hk : k ≠ key := by
      rintro rfl
      rw [ReverseTunneling.stopTunnel, AList.lookup_erase] at ht'
      cases ht'
    rw [ReverseTunneling.stopTunnel, AList.lookup_erase_ne hk] at ht'
    obtain ⟨y, hy, hkey', htimes⟩ := h.tracked ht'
    refine ⟨y, hrunning.mpr ⟨hy, fun hssh => hk ?_⟩, hkey', htimes⟩
    obtain rfl : x = y := Option.some.inj (hx.1.symm.trans (hssh ▸ hy.1))
    rw [hkey', hkey]
  · obtain ⟨hy, hne⟩ := hrunning.mp hy
    obtain ⟨t', ht', hssh⟩ := h.running hy
    have hk : y.key ≠ key := by
      rintro rfl
      obtain rfl : t = t' := Option.some.inj (ht.symm.trans ht')
      exact hne hssh.symm
    refine ⟨t', ?_, hssh⟩
    rw [ReverseTunneling.stopTunnel, AList.lookup_erase_ne hk]
    exact ht'
  · by_cases hi : i = t.ssh
    · subst hi
      obtain rfl : x = y := Option.some.inj (hx.1.symm.trans hy)
      have hcalls : (rt.stopTunnel key t expiredAt).stopsOf t.ssh =
          rt.stopsOf t.ssh ++ [⟨t.ssh, expiredAt, false⟩, ⟨t.ssh, none, true⟩] := by
        simp [stopsOf, ReverseTunneling.stopTunnel]
      rw [stopsOf_eq_nil.mpr hx.2.2, List.nil_append] at hcalls
      rw [Stopped, if_pos hx.2.1]
      exact .inr ⟨expiredAt, hcalls⟩
    · have hcalls : (rt.stopTunnel key t expiredAt).stopsOf i = rt.stopsOf i := by
        simp [stopsOf, ReverseTunneling.stopTunnel, Ne.symm hi]
      rw [Stopped, hcalls]
      exact h.stopped hy
  · rw [ReverseTunneling.stopTunnel, List.mem_append, List.mem_pair] at hs
    obtain hs | rfl | rfl := hs
    · exact h.made s hs
    · refine ⟨x, hx.1, fun now hnow => ?_⟩
      have := hexpired now hnow
      rw [expired, decide_eq_true_eq] at this
      rwa [← htimeout, ← hcreation]
    · exact ⟨x, hx.1, fun now hnow => by cases hnow⟩

/-- Where the tunnel that is made starts, nothing is stopped, and where it does not, only that one is. -/
theorem Tracked.stops_makeTunnel (h : rt.Tracked) (clientId : String) (keypair : String × String)
    (p : PortForwardParams) (env : HandleEnv) (i : ℕ) : (rt.makeTunnel clientId keypair p env).stopsOf i =
      if i = rt.made.length then if env.start then [] else [⟨rt.made.length, none, true⟩] else rt.stopsOf i := by
  have hnew : rt.stopsOf rt.made.length = [] := stopsOf_eq_nil.mpr fun hi => (h.stop_lt hi).false
  by_cases hi : i = rt.made.length
  · subst hi
    rw [stopsOf] at hnew
    cases hstart : env.start <;> simp [stopsOf, ReverseTunneling.makeTunnel, hstart, hnew]
  · cases hstart : env.start <;> simp [stopsOf, ReverseTunneling.makeTunnel, hstart, hi, Ne.symm hi]

/-- The tunnel that is made, if it starts, and those that run already. -/
theorem Tracked.running_makeTunnel (h : rt.Tracked) {clientId : String} {keypair : String × String}
    {p : PortForwardParams} {env : HandleEnv} {i : ℕ} {y : MadeTunnel} :
    (rt.makeTunnel clientId keypair p env).Running i y ↔
      rt.Running i y ∨ i = rt.made.length ∧ env.start = true ∧
        (rt.makeTunnel clientId keypair p env).made[i]? = some y := by
  obtain hi | rfl | hi := lt_trichotomy i rt.made.length
  · have hmade : (rt.makeTunnel clientId keypair p env).made[i]? = rt.made[i]? := List.getElem?_append_left hi
    have hcalls := h.stops_makeTunnel clientId keypair p env i
    rw [if_neg hi.ne] at hcalls
    rw [Running, Running, hmade, ← stopsOf_eq_nil, ← stopsOf_eq_nil, hcalls]
    exact ⟨.inl, fun h => h.resolve_right fun h => hi.ne h.1⟩
  · have hmade : (rt.makeTunnel clientId keypair p env).made[rt.made.length]? = some _ := List.getElem?_concat_length
    have hold : ¬ rt.Running rt.made.length y := fun hy => by simpa using hy.1
    have hcalls := h.stops_makeTunnel clientId keypair p env rt.made.length
    rw [if_pos rfl] at hcalls
    rw [Running, hmade, ← stopsOf_eq_nil, hcalls]
    constructor
    · rintro ⟨hy, hstarted, -⟩
      obtain rfl := Option.some.inj hy
      exact .inr ⟨rfl, hstarted, rfl⟩
    · rintro (hy | ⟨-, hstarted, hy⟩)
      · exact absurd hy hold
      · obtain rfl := Option.some.inj hy
        exact ⟨rfl, hstarted, if_pos hstarted⟩
  · have hlen : (rt.makeTunnel clientId keypair p env).made.length = rt.made.length + 1 := List.length_append
    have hmade : (rt.makeTunnel clientId keypair p env).made[i]? = none := List.getElem?_eq_none (hlen ▸ hi)
    have hold : rt.made[i]? = none := List.getElem?_eq_none hi.le
    rw [Running, Running, hmade, hold]
    simp

theorem Tracked.makeTunnel (h : rt.Tracked) {clientId : String} {keypair : String × String} {p : PortForwardParams}
    {env : HandleEnv} (hkey : tunnelKey p.camIp p.camPort ∉ rt.tunnels) :
    (rt.makeTunnel clientId keypair p env).Tracked := by
  have hmade : (rt.makeTunnel clientId keypair p env).made[rt.made.length]? = some _ := List.getElem?_concat_length
  have hold {k : String} {t : Tunnel} (ht : rt.tunnels.lookup k = some t) : k ≠ tunnelKey p.camIp p.camPort := by
    rintro rfl
    exact hkey (AList.lookup_isSome.mp (by rw [ht]; rfl))
  have hlookup {k : String} {t : Tunnel} (ht : rt.tunnels.lookup k = some t) :
      (rt.makeTunnel clientId keypair p env).tunnels.lookup k = some t := by
    rw [ReverseTunneling.makeTunnel]
    dsimp only
    split
    · rw [AList.lookup_insert_ne (hold ht), ht]
    · exact ht
  refine ⟨fun {k t} ht => ?_, fun {i y} hy => ?_, fun {i y} hy => ?_, fun s hs => ?_⟩
  · have hcases : rt.tunnels.lookup k = some t ∨ k = tunnelKey p.camIp p.camPort ∧ env.start = true ∧
        t = ⟨clientId, rt.made.length, env.now, p.timeout⟩ := by
      rw [ReverseTunneling.makeTunnel] at ht
      dsimp only at ht
      split at ht
      · rename_i hstart
        by_cases hk : k = tunnelKey p.camIp p.camPort
        · rw [hk, AList.lookup_insert] at ht
          exact .inr ⟨hk, hstart, (Option.some.inj ht).symm⟩
        · rw [AList.lookup_insert_ne hk] at ht
          exact .inl ht
      · exact .inl ht
    obtain ht | ⟨rfl, hstart, rfl⟩ := hcases
    · obtain ⟨x, hx, hx'⟩ := h.tracked ht
      exact ⟨x, h.running_makeTunnel.mpr (.inl hx), hx'⟩
    · exact ⟨_, h.running_makeTunnel.mpr (.inr ⟨rfl, hstart, hmade⟩), rfl, rfl, rfl⟩
  · obtain hy | ⟨rfl, hstart, hy⟩ := h.running_makeTunnel.mp hy
    · obtain ⟨t, ht, hssh⟩ := h.running hy
      exact ⟨t, hlookup ht, hssh⟩
    · obtain rfl := Option.some.inj (hmade.symm.trans hy)
      refine ⟨⟨clientId, rt.made.length, env.now, p.timeout⟩, ?_, rfl⟩
      rw [ReverseTunneling.makeTunnel]
      dsimp only
      rw [if_pos hstart]
      exact AList.lookup_insert _
  · rw [Stopped, h.stops_makeTunnel clientId keypair p env i]
    by_cases hi : i = rt.made.length
    · subst hi
      obtain rfl := Option.some.inj (hmade.symm.trans hy)
      rw [if_pos rfl]
      split
      · exact .inl rfl
      · rfl
    · rw [if_neg hi]
      have hlt : i < rt.made.length := by
        have := (List.getElem?_eq_some_iff.mp hy).1
        rw [ReverseTunneling.makeTunnel, List.length_append, List.length_singleton] at this
        omega
      exact h.stopped ((List.getElem?_append_left hlt).symm.trans hy)
  · have hs : s ∈ rt.stops ∨ s = ⟨rt.made.length, none, true⟩ := by
      rw [ReverseTunneling.makeTunnel] at hs
      dsimp only at hs
      split at hs
      · exact .inl hs
      · exact (List.mem_append.mp hs).imp_right List.mem_singleton.mp
    obtain hs | rfl := hs
    · obtain ⟨x, hx, hx'⟩ := h.made s hs
      exact ⟨x, (List.getElem?_append_left (List.getElem?_eq_some_iff.mp hx).1).trans hx, hx'⟩
    · exact ⟨_, hmade, fun now hnow => by cases hnow⟩

theorem Tracked.step (h : rt.Tracked) (hs : rt.step publicPem2ssh e = some rt') : rt'.Tracked := by
  cases e with
  | handle clientId message env =>
    obtain rfl := Option.some.inj hs
    obtain h' | h' | ⟨p, keypair, hkey, -, h'⟩ | ⟨key, t, ht, h'⟩ := handle_cases publicPem2ssh rt clientId message env
    · rwa [h']
    · rw [h']
      exact ⟨h.tracked, h.running, h.stopped, h.made⟩
    · rw [h']
      exact h.makeTunnel hkey
    · rw [h']
      exact h.stopTunnel ht fun _ h => by cases h
  | gc begins now =>
    obtain rfl := Option.some.inj hs
    refine gc_preserves (P := Tracked) (fun {rt key t} h ht hexpired => h.stopTunnel ht fun τ hτ => ?_) h
    obtain rfl := Option.some.inj hτ
    exact hexpired

theorem tracked_of_exec {es : List Event} (he : exec (step publicPem2ssh) {} es = some rt) : rt.Tracked :=
  run_invariant (fun _ _ _ h hs => h.step hs) tracked_empty he

theorem colon_notMem_decimal (n : ℤ) : ':' ∉ Utils.decimal n := by
  have hdigits : ':' ∉ Nat.toDigits 10 n.natAbs := fun h => by
    have := Nat.isDigit_of_mem_toDigits (by decide) (by decide) h
    simp at this
  rw [Utils.decimal]
  split
  · exact List.not_mem_cons_of_ne_of_not_mem (by decide) hdigits
  · exact hdigits

theorem decimal_injective {m n : ℤ} (h : Utils.decimal m = Utils.decimal n) : m = n := by
  have hvalue {i j : ℕ} (h : Nat.toDigits 10 i = Nat.toDigits 10 j) : i = j := by
    rw [← Nat.ofDigitChars_ten_toDigits (n := i), h, Nat.ofDigitChars_ten_toDigits]
  have hsign {i j : ℕ} (h : '-' :: Nat.toDigits 10 i = Nat.toDigits 10 j) : False := by
    have hmem : '-' ∈ Nat.toDigits 10 j := h ▸ List.mem_cons_self
    have := Nat.isDigit_of_mem_toDigits (by decide) (by decide) hmem
    simp at this
  unfold Utils.decimal at h
  split at h <;> split at h
  · have := hvalue (List.cons.inj h).2
    omega
  · exact (hsign h).elim
  · exact (hsign h.symm).elim
  · have := hvalue h
    omega

/-- Different addresses have different keys, whatever text stands for the host. -/
theorem tunnelKey_injective {ip ip' : String} {port port' : ℤ} (h : tunnelKey ip port = tunnelKey ip' port') :
    ip = ip' ∧ port = port' := by
  have hlast {l l' r r' : List Char} (h : l ++ ':' :: r = l' ++ ':' :: r') (hr : ':' ∉ r) (hr' : ':' ∉ r') :
      l = l' ∧ r = r' := by
    obtain ⟨as, rfl, has⟩ | ⟨as, rfl, has⟩ := List.append_eq_append_iff.mp h
    · cases as with
      | nil => simpa using has
      | cons a as =>
        rw [List.cons_append, List.cons.injEq] at has
        exact absurd (has.2 ▸ List.mem_append_right as List.mem_cons_self) hr
    · cases as with
      | nil => simpa [eq_comm] using has
      | cons a as =>
        rw [List.cons_append, List.cons.injEq] at has
        exact absurd (has.2 ▸ List.mem_append_right as List.mem_cons_self) hr'
  obtain ⟨hip, hport⟩ := hlast (String.ofList_injective h) (colon_notMem_decimal _) (colon_notMem_decimal _)
  exact ⟨String.toList_inj.mp hip, decimal_injective hport⟩

/-- However requests and the thread that collects expired tunnels come in turn, a tunnel that was started is in the map,
under its address, until it is stopped by a request or as expired, and then its destructor stops it for the second and
last time; one that was not started is stopped by its destructor alone. So no two of those that run have the same address,
and an address is taken exactly while a tunnel for it runs. -/
theorem tunnels_tracked {es : List Event} (he : exec (step publicPem2ssh) {} es = some rt) :
    (∀ i x, rt.made[i]? = some x → rt.Stopped i x) ∧
      (∀ i x, rt.made[i]? = some x → x.started = true →
        (i ∉ rt.stops.map StopCall.ssh ↔ ∃ t, rt.tunnels.lookup x.key = some t ∧ t.ssh = i)) ∧
      (∀ i j x y, rt.Running i x → rt.Running j y → x.params.localDestIp = y.params.localDestIp →
        x.camPort = y.camPort → i = j) ∧
      ∀ camIp camPort, tunnelKey camIp camPort ∈ rt.tunnels ↔
        ∃ i x, rt.Running i x ∧ x.params.localDestIp = camIp ∧ x.camPort = camPort := by
  have h := tracked_of_exec he
  refine ⟨fun i x hx => h.stopped hx, fun i x hx hstarted => ⟨fun hi => h.running ⟨hx, hstarted, hi⟩, ?_⟩, ?_,
    fun camIp camPort => ?_⟩
  · rintro ⟨t, ht, rfl⟩
    obtain ⟨y, hy, -⟩ := h.tracked ht
    exact hy.2.2
  · intro i j x y hx hy hip hport
    obtain ⟨t, ht, rfl⟩ := h.running hx
    obtain ⟨t', ht', rfl⟩ := h.running hy
    rw [MadeTunnel.key, hip, hport] at ht
    rw [Option.some.inj (ht.symm.trans ht')]
  · constructor
    · intro hkey
      obtain ⟨t, ht⟩ := Option.isSome_iff_exists.mp (AList.lookup_isSome.mpr hkey)
      obtain ⟨x, hx, hkey', -⟩ := h.tracked ht
      obtain ⟨hip, hport⟩ := tunnelKey_injective hkey'
      exact ⟨t.ssh, x, hx, hip.symm, hport.symm⟩
    · rintro ⟨i, x, hx, rfl, rfl⟩
      obtain ⟨t, ht, -⟩ := h.running hx
      exact AList.lookup_isSome.mp (by rw [← MadeTunnel.key, ht]; rfl)

/-- A tunnel for a minute is asked for with the key pair that was sent, and again while it is there. -/
def session : List Event :=
  [.handle "server" (request .getKey) (clockAt 0), .handle "server" (request .createTunnel) (clockAt 1000000000),
    .gc 2000000000 fun _ => 2000000000, .handle "server" (request .getKey) (clockAt 3000000000),
    .handle "server" (request .createTunnel) (clockAt 4000000000), .gc 70000000000 fun _ => 70000000001]
where
  request (cmd : PortForwardCmd) : Option PortForwardMessage :=
    some ⟨cmd, 1, false, ⟨"192.168.0.10", 554, 2222, "camera", "203.0.113.1", 60⟩⟩
  clockAt (now : ℤ) : HandleEnv := ⟨("private", "public"), now, true, .ok⟩

theorem tunnels_tracked_session :
    ∃ rt, exec (step id) {} session = some rt ∧ rt.made.length = 1 ∧
      rt.stops = [⟨0, some 70000000001, false⟩, ⟨0, none, true⟩] ∧ ∀ x, rt.made[0]? = some x → rt.Stopped 0 x ∧
        (x.started = true → ¬ ∃ t, rt.tunnels.lookup x.key = some t ∧ t.ssh = 0) := by
  have hrun : ∃ rt ∈ exec (step id) {} session, rt.made.length = 1 ∧
      rt.stops = [⟨0, some 70000000001, false⟩, ⟨0, none, true⟩] := by decide +kernel
  obtain ⟨rt, he, hmade, hstops⟩ := hrun
  obtain ⟨hstopped, hmap, -⟩ := tunnels_tracked he
  refine ⟨rt, he, hmade, hstops, fun x hx => ⟨hstopped 0 x hx, fun hstarted ht => ?_⟩⟩
  have hnot := (hmap 0 x hx hstarted).mpr ht
  simp [hstops] at hnot

/-! ### A key pair is used once -/

/-- The key pair whose public key the client was sent last. -/
def lastKeypair (generated : List (String × String × String)) (clientId : String) : Option (String × String) :=
  (generated.filter (·.1 = clientId)).getLast?.map Prod.snd

@[simp] theorem lastKeypair_append_self (l : List (String × String × String)) (clientId : String)
    (keypair : String × String) : lastKeypair (l ++ [(clientId, keypair)]) clientId = some keypair := by
  simp [lastKeypair]

theorem lastKeypair_append_ne {clientId other : String} (h : other ≠ clientId) (l : List (String × String × String))
    (keypair : String × String) : lastKeypair (l ++ [(clientId, keypair)]) other = lastKeypair l other := by
  simp [lastKeypair, h.symm]

/-- How many tunnels were made for the client with the key pair. -/
def uses (rt : ReverseTunneling) (clientId : String) (keypair : String × String) : ℕ :=
  (rt.made.map fun x => (x.clientId, x.keypair)).count (clientId, keypair)

/-- A pair that waits was sent last to its client, and its one use is still to come. -/
structure Custody (rt : ReverseTunneling) : Prop where
  pending : ∀ {clientId keypair}, rt.keypairs.lookup clientId = some keypair →
    lastKeypair rt.generated clientId = some keypair
  once : ∀ clientId keypair, rt.uses clientId keypair +
    (if rt.keypairs.lookup clientId = some keypair then 1 else 0) ≤ rt.generated.count (clientId, keypair)
  made : ∀ x ∈ rt.made, x.keysBefore ≤ rt.generated.length ∧
    lastKeypair (rt.generated.take x.keysBefore) x.clientId = some x.keypair

theorem custody_empty : ({} : ReverseTunneling).Custody where
  pending h := by cases h
  once _ _ := Nat.le_refl 0
  made _ h := by cases h

theorem Custody.getKey (h : rt.Custody) (clientId : String) (keypair : String × String) :
    Custody { rt with
      keypairs := rt.keypairs.insert clientId keypair
      generated := rt.generated ++ [(clientId, keypair)] } where
  pending {other k} hk := by
    by_cases hother : other = clientId
    · subst hother
      rw [AList.lookup_insert] at hk
      rw [lastKeypair_append_self, hk]
    · rw [AList.lookup_insert_ne hother] at hk
      rw [lastKeypair_append_ne hother]
      exact h.pending hk
  once other k := by
    have hold := h.once other k
    have huses : uses { rt with
        keypairs := rt.keypairs.insert clientId keypair
        generated := rt.generated ++ [(clientId, keypair)] } other k = rt.uses other k := rfl
    rw [huses, List.count_append, List.count_singleton]
    by_cases hother : other = clientId
    · subst hother
      by_cases hk : keypair = k
      · simp only [AList.lookup_insert, hk, beq_self_eq_true, if_true]
        omega
      · simp only [AList.lookup_insert, Option.some.injEq, hk, if_false]
        omega
    · rw [AList.lookup_insert_ne hother]
      omega
  made x hx := by
    obtain ⟨hlen, hlast⟩ := h.made x hx
    refine ⟨hlen.trans (by simp), ?_⟩
    rwa [List.take_append_of_le_length hlen]

theorem Custody.makeTunnel (h : rt.Custody) {clientId : String} {keypair : String × String} {p : PortForwardParams}
    {env : HandleEnv} (hpair : rt.keypairs.lookup clientId = some keypair) :
    (rt.makeTunnel clientId keypair p env).Custody where
  pending {other k} hk := by
    have hother : other ≠ clientId := by
      rintro rfl
      rw [ReverseTunneling.makeTunnel, AList.lookup_erase] at hk
      cases hk
    rw [ReverseTunneling.makeTunnel, AList.lookup_erase_ne hother] at hk
    exact h.pending hk
  once other k := by
    have hold := h.once other k
    have huses : (rt.makeTunnel clientId keypair p env).uses other k =
        rt.uses other k + if (clientId, keypair) = (other, k) then 1 else 0 := by
      simp [uses, ReverseTunneling.makeTunnel, MadeTunnel.keypair, List.count_singleton]
    have hlookup : (rt.makeTunnel clientId keypair p env).keypairs = rt.keypairs.erase clientId := rfl
    have hgenerated : (rt.makeTunnel clientId keypair p env).generated = rt.generated := rfl
    rw [huses, hlookup, hgenerated]
    by_cases hother : other = clientId
    · subst hother
      rw [hpair] at hold
      rw [AList.lookup_erase]
      simpa using hold
    · rw [AList.lookup_erase_ne hother]
      simpa [Ne.symm hother] using hold
  made x hx := by
    obtain hx | hx := List.mem_append.mp hx
    · exact h.made x hx
    · obtain rfl := List.mem_singleton.mp hx
      refine ⟨Nat.le_refl _, ?_⟩
      change lastKeypair (rt.generated.take rt.generated.length) clientId = some keypair
      rw [List.take_length]
      exact h.pending hpair

theorem Custody.stopTunnel (h : rt.Custody) (key : String) (t : Tunnel) (expiredAt : Option ℤ) :
    (rt.stopTunnel key t expiredAt).Custody := ⟨h.pending, h.once, h.made⟩

theorem Custody.step (h : rt.Custody) (hs : rt.step publicPem2ssh e = some rt') : rt'.Custody := by
  cases e with
  | handle clientId message env =>
    obtain rfl := Option.some.inj hs
    obtain h' | h' | ⟨p, keypair, -, hpair, h'⟩ | ⟨key, t, -, h'⟩ := handle_cases publicPem2ssh rt clientId message env
    · rwa [h']
    · rw [h']
      exact h.getKey clientId env.keypair
    · rw [h']
      exact h.makeTunnel hpair
    · rw [h']
      exact h.stopTunnel key t none
  | gc begins now =>
    obtain rfl := Option.some.inj hs
    exact gc_preserves (fun h _ _ => h.stopTunnel _ _ _) h

/-- Every tunnel is made with the key pair whose public key was sent last to the client that asks for it, and no pair is
used for more tunnels than it was generated for, that is for one where they are all different, whether or not the tunnel
started. -/
theorem keys_used_once {es : List Event} (he : exec (step publicPem2ssh) {} es = some rt) :
    (∀ x ∈ rt.made, lastKeypair (rt.generated.take x.keysBefore) x.clientId = some x.keypair) ∧
      ∀ clientId keypair, rt.uses clientId keypair ≤ rt.generated.count (clientId, keypair) := by
  have h : rt.Custody := run_invariant (fun _ _ _ h hs => h.step hs) custody_empty he
  exact ⟨fun x hx => (h.made x hx).2, fun clientId keypair => le_of_add_le_left (h.once clientId keypair)⟩

theorem keys_used_once_session :
    ∃ rt, exec (step id) {} session = some rt ∧ rt.generated.length = 2 ∧
      rt.uses "server" ("private", "public") ≤ rt.generated.count ("server", "private", "public") := by
  have hrun : ∃ rt ∈ exec (step id) {} session, rt.generated.length = 2 := by decide +kernel
  obtain ⟨rt, he, hgenerated⟩ := hrun
  exact ⟨rt, he, hgenerated, (keys_used_once he).2 _ _⟩

/-! ### When a tunnel is stopped -/

theorem gcVisit_lookup {now : String → ℤ} {key k : String} {t : Tunnel}
    (h : (rt.gcVisit now key).tunnels.lookup k = some t) :
    rt.tunnels.lookup k = some t ∧ (k = key → expired (now k) t = false) := by
  rw [gcVisit] at h
  split at h
  · rename_i t' ht'
    split at h
    · have hk : k ≠ key := by
        rintro rfl
        rw [stopTunnel, AList.lookup_erase] at h
        cases h
      rw [stopTunnel, AList.lookup_erase_ne hk] at h
      exact ⟨h, fun hk' => absurd hk' hk⟩
    · rename_i hexpired
      refine ⟨h, ?_⟩
      rintro rfl
      obtain rfl : t' = t := Option.some.inj (ht'.symm.trans h)
      simpa using hexpired
  · rename_i hnone
    refine ⟨h, ?_⟩
    rintro rfl
    rw [hnone] at h
    cases h

/-- None of the tunnels that `_gc` leaves is expired. -/
theorem gc_lookup {now : String → ℤ} {key : String} {t : Tunnel} (h : (rt.gc now).tunnels.lookup key = some t) :
    expired (now key) t = false := by
  have hloop (keys : List String) : ∀ rt : ReverseTunneling, (keys.foldl (gcVisit now) rt).tunnels.lookup key = some t →
      rt.tunnels.lookup key = some t ∧ (key ∈ keys → expired (now key) t = false) := by
    induction keys with
    | nil => exact fun _ h => ⟨h, fun hkey => absurd hkey List.not_mem_nil⟩
    | cons k keys ih =>
      intro rt h
      obtain ⟨h, hkeys⟩ := ih _ h
      obtain ⟨h, hk⟩ := gcVisit_lookup h
      exact ⟨h, fun hkey => (List.mem_cons.mp hkey).elim hk hkeys⟩
  obtain ⟨h, hexpired⟩ := hloop _ rt h
  exact hexpired (StdMap.mem_order.mpr (AList.lookup_isSome.mp (by rw [h]; rfl)))

def Event.time : Event → ℤ
  | .handle _ _ env => env.now
  | .gc begins _ => begins

/-- The service with the time of the last event, and the one at which `_gc` began last. -/
structure Watched where
  service : ReverseTunneling
  clock : ℤ
  lastGc : ℤ

def Watched.step (publicPem2ssh : String → String) (w : Watched) (e : Event) : Option Watched :=
  (w.service.step publicPem2ssh e).map fun service =>
    ⟨service, e.time, match e with | .gc begins _ => begins | .handle .. => w.lastGc⟩

/-- The clock does not go back, and `_gc` comes round within the interval. -/
def InTime (interval : ℤ) (w : Watched) (e : Event) : Prop :=
  w.clock ≤ e.time ∧ e.time ≤ w.lastGc + interval ∧ ∀ begins now, e = .gc begins now → ∀ key, begins ≤ now key

/-- No tunnel that runs had expired when `_gc` began last. -/
structure Timely (interval : ℤ) (w : Watched) : Prop where
  tracked : w.service.Tracked
  lastGc : w.lastGc ≤ w.clock
  clock : w.clock ≤ w.lastGc + interval
  running : ∀ i x, w.service.Running i x → w.lastGc ≤ x.createdAt + max 0 (x.params.timeout * 1000000000)

theorem running_handle (h : rt.Tracked) {clientId : String} {message : Option PortForwardMessage} {env : HandleEnv}
    {i : ℕ} {x : MadeTunnel} (hx : (rt.handle publicPem2ssh clientId message env).1.Running i x) :
    rt.Running i x ∨ x.createdAt = env.now := by
  obtain h' | h' | ⟨p, keypair, -, -, h'⟩ | ⟨key, t, -, h'⟩ := handle_cases publicPem2ssh rt clientId message env
  · rw [h'] at hx
    exact .inl hx
  · rw [h'] at hx
    exact .inl hx
  · rw [h'] at hx
    obtain hx | ⟨rfl, -, hx⟩ := h.running_makeTunnel.mp hx
    · exact .inl hx
    · obtain rfl := Option.some.inj (List.getElem?_concat_length.symm.trans hx)
      exact .inr rfl
  · rw [h'] at hx
    refine .inl ⟨hx.1, hx.2.1, fun hi => hx.2.2 ?_⟩
    rw [stopTunnel, List.map_append]
    exact List.mem_append_left _ hi

theorem Timely.step {interval : ℤ} {w w' : Watched} (h : Timely interval w) (hin : InTime interval w e)
    (hs : w.step publicPem2ssh e = some w') : Timely interval w' := by
  obtain ⟨service, hservice, rfl⟩ := Option.map_eq_some_iff.mp hs
  have htracked := h.tracked.step hservice
  obtain ⟨hclock, hinterval, hbegins⟩ := hin
  have hlast := h.lastGc
  cases e with
  | handle clientId message env =>
    refine ⟨htracked, hlast.trans hclock, hinterval, fun i x hx => ?_⟩
    obtain rfl := Option.some.inj hservice
    obtain hx | hx := running_handle h.tracked hx
    · exact h.running i x hx
    · have hnow : w.clock ≤ env.now := hclock
      dsimp only
      omega
  | gc begins now =>
    have hinterval : begins ≤ w.lastGc + interval := hinterval
    have hclock : w.clock ≤ begins := hclock
    refine ⟨htracked, le_refl _, ?_, fun i x hx => ?_⟩
    · change begins ≤ begins + interval
      omega
    · obtain ⟨t, ht, rfl⟩ := htracked.running hx
      obtain ⟨y, hy, -, hcreation, htimeout⟩ := htracked.tracked ht
      obtain rfl : x = y := Option.some.inj (hx.1.symm.trans hy.1)
      obtain rfl := Option.some.inj hservice
      have hexpired := gc_lookup ht
      have hnow := hbegins begins now rfl x.key
      rw [expired, decide_eq_false_iff_not, hcreation, htimeout] at hexpired
      change begins ≤ _
      omega

/-- As long as the clock does not go back, no tunnel is stopped as expired before its timeout, and none runs for longer
than that and the interval within which `_gc` comes round. -/
theorem tunnels_expire {interval begins : ℤ} {es : List Event} {w : Watched} (hinterval : 0 ≤ interval)
    (he : exec (Watched.step publicPem2ssh) ⟨{}, begins, begins⟩ es = some w)
    (hin : Meets (Watched.step publicPem2ssh) (InTime interval) ⟨{}, begins, begins⟩ es) :
    (∀ s ∈ w.service.stops, ∀ now ∈ s.expiredAt, ∃ x, w.service.made[s.ssh]? = some x ∧
        x.params.timeout * 1000000000 < now - x.createdAt) ∧
      ∀ i x, w.service.Running i x → w.clock - x.createdAt ≤ max 0 (x.params.timeout * 1000000000) + interval := by
  have hstart : Timely interval ⟨{}, begins, begins⟩ :=
    ⟨tracked_empty, le_refl _, by dsimp only; omega, fun i x hx => by cases hx.1⟩
  have h : Timely interval w := invariant (fun _ _ _ h ha hs => h.step ha hs) hstart hin he
  refine ⟨fun s hs now hnow => ?_, fun i x hx => ?_⟩
  · obtain ⟨x, hx, hexpired⟩ := h.tracked.made s hs
    exact ⟨x, hx, hexpired now hnow⟩
  · have hrunning := h.running i x hx
    have hclock := h.clock
    omega

theorem tunnels_expire_session :
    ∃ w, exec (Watched.step id) ⟨{}, 0, 0⟩ (session.take 5) = some w ∧ w.clock = 4000000000 ∧
      ∀ i x, w.service.Running i x → w.clock - x.createdAt ≤ max 0 (x.params.timeout * 1000000000) + 2000000000 := by
  have hrun : ∃ w ∈ exec (Watched.step id) ⟨{}, 0, 0⟩ (session.take 5), w.clock = 4000000000 := by decide +kernel
  have hclock : Meets (Watched.step id) (fun w e => w.clock ≤ e.time ∧ e.time ≤ w.lastGc + 2000000000) ⟨{}, 0, 0⟩
      (session.take 5) := by decide +kernel
  obtain ⟨w, he, htime⟩ := hrun
  have hin : Meets (Watched.step id) (InTime 2000000000) ⟨{}, 0, 0⟩ (session.take 5) := by
    refine hclock.mono fun e he w hw => ⟨hw.1, hw.2, ?_⟩
    rintro begins now rfl key
    simp only [session, List.take_succ_cons, List.take_zero, List.mem_cons, List.not_mem_nil, reduceCtorEq, or_false,
      false_or, Event.gc.injEq] at he
    rw [he.1, he.2]
  exact ⟨w, he, htime, (tunnels_expire (by decide) he hin).2⟩

end ReverseTunneling
end CloudAgent.Platform
