import Waywallen.Daemon.Frames
import Waywallen.Display.Pointer
import Waywallen.Library.Transition

/-!
# Display connections

A client says hello and registers a display, and the daemon answers with an error, or with a welcome
and the id of the display, before it streams what the router puts on the display's channel. Pointer
events go to the renderer that is bound, at the texture point under the latest configuration.
-/

namespace Waywallen

structure Hello where
  protocol : String
  clientName : String
  clientVersion : String
  clientProtocolVersion : ℕ
deriving DecidableEq

/-- The request that registers a display; an empty instance id stands for none. -/
structure RegisterDisplay where
  name : String
  instanceId : String
  width : ℕ
  height : ℕ
  refreshMhz : ℕ
  gpu : DrmNode
deriving DecidableEq

def RegisterDisplay.registration (r : RegisterDisplay) : DisplayRegistration :=
  { name := r.name
    instanceId := if r.instanceId = "" then none else some r.instanceId
    width := r.width
    height := r.height
    refreshMhz := r.refreshMhz
    gpu := r.gpu
    consumerCaps := none }

inductive PointerKind where
  | motion
  | button (button state : UInt32)
  | axis (deltaX deltaY : ℚ) (source : UInt32)
deriving DecidableEq

structure PointerEvent where
  x : ℚ
  y : ℚ
  kind : PointerKind
  timestampUs : ℕ
  modifiers : UInt32
deriving DecidableEq

inductive DisplayRequest where
  | hello (h : Hello)
  | registerDisplay (r : RegisterDisplay)
  | pointer (p : PointerEvent)
  | client (q : ClientRequest)

/-- The error a client is sent before the connection is closed. -/
structure Refusal where
  code : ℕ
  message : String
deriving DecidableEq

inductive ServerEvent where
  | error (code : ℕ) (message : String)
  | welcome (serverVersion : String) (features : List String)
  | displayAccepted (d : DisplayId)
  | stream (w : WireEvent)
deriving DecidableEq

/-- What the other tasks are told of a refusal. -/
structure DisplayConnectionFailed where
  clientName : String
  clientProtocolVersion : ℕ
  errorCode : ℕ
  reason : String
deriving DecidableEq

/-- A pointer event handed to a renderer. -/
structure Forwarded where
  renderer : RendererId
  point : ℚ × ℚ
  event : PointerEvent
  /-- How many events the client had been sent. -/
  sent : ℕ
deriving DecidableEq

/-- Where the task of a connection is. -/
inductive ConnectionStage where
  | awaitingHello
  | refusing (r : Refusal)
  | welcoming
  | awaitingRegister
  | registering (r : RegisterDisplay)
  | accepting (d : DisplayId)
  | serving (d : DisplayId)
  | closing (d : DisplayId)
  | closed
deriving DecidableEq

structure Connection where
  stage : ConnectionStage := .awaitingHello
  /-- The hello received, and the display registered; the code keeps neither for a connection that
  is over. -/
  hello : Option Hello := none
  display : Option DisplayId := none
  wire : List ServerEvent := []
  /-- How much has been taken off the channel of the display. -/
  taken : ℕ := 0
  boundRenderer : Option RendererId := none
  latestConfig : Option ProjectedConfig := none
  /-- The calls made for the client. -/
  calls : List Call := []
  forwarded : List Forwarded := []

/-- The listener, its connections, and what they share with the rest of the daemon. -/
structure Endpoint where
  inner : Inner := .new
  /-- Everything ever put on each display's channel. -/
  channels : DisplayId → List DisplayOutEvent := fun _ => []
  snapshots : RendererId → Option BindSnapshot := fun _ => none
  /-- The events in the manifest of each live renderer. -/
  eventsSubscribed : RendererId → Option (List String) := fun _ => none
  connections : List Connection := []
  failures : List DisplayConnectionFailed := []
  shutdown : Bool := false

/-- What the program does not decide about a step of a connection's task. -/
inductive ConnectionAct where
  | tick
  /-- What is to be sent cannot be sent. -/
  | fail
  | receive (q : DisplayRequest)
  /-- The client hung up, or sent what cannot be read. -/
  | lost
  /-- The shutdown is noticed. -/
  | stop

inductive EndpointLabel where
  | accept
  | shutdown
  /-- Another task calls the router, with the rest of the daemon's state as it finds it. -/
  | router (c : RouterCall) (daemon : Daemon)
  | send (d : DisplayId) (e : DisplayOutEvent)
  | setSnapshot (r : RendererId) (snap : Option BindSnapshot)
  | setEventsSubscribed (r : RendererId) (events : Option (List String))
  | connection (i : ℕ) (a : ConnectionAct)

/-! ## The handshake -/

/-- The name of a version of the protocol, as the generator writes it. -/
def protocolName (version : ℕ) : String := "waywallen-display-v" ++ toString version

def protocolVersion : ℕ := 7

def minSupportedClientVersion : ℕ := 6

def serverVersion : String := "waywallen 0.2.1"

def advertisedFeatures : List String :=
  ["explicit_sync_fd", "drm_syncobj_release", "modifier_negotiation_v1"]

-- how the standard library quotes a string
variable (quoted : String → String)

/-- Why a client is not welcome. -/
def Hello.refusal (h : Hello) : Option Refusal :=
  if h.protocol ≠ protocolName protocolVersion then
    some ⟨1, "unsupported protocol: " ++ quoted h.protocol ++ " (expected " ++
      quoted (protocolName protocolVersion) ++ ")"⟩
  else if ¬(minSupportedClientVersion ≤ h.clientProtocolVersion ∧
      h.clientProtocolVersion ≤ protocolVersion) then
    some ⟨2, "client protocol v" ++ toString h.clientProtocolVersion ++
      " not supported; daemon accepts [" ++ toString minSupportedClientVersion ++ "..=" ++
      toString protocolVersion ++ "]"⟩
  else none

theorem protocolName_injective {m n : ℕ} (h : protocolName m = protocolName n) : m = n := by
  have hdigits : Nat.toDigits 10 m = Nat.toDigits 10 n := by
    rw [← Nat.toList_repr, ← Nat.toList_repr]
    exact congrArg String.toList ((String.append_right_inj _).1 h)
  have hval := congrArg (fun l => Nat.ofDigitChars 10 l 0) hdigits
  simpa using hval

/-- A client that names the protocol after its own version is let in at the last version only,
although the one before it is in the range. -/
theorem Hello.refusal_eq_none {h : Hello} (hr : h.refusal quoted = none)
    (hname : h.protocol = protocolName h.clientProtocolVersion) :
    h.clientProtocolVersion = protocolVersion := by
  rw [refusal] at hr
  split at hr
  · cases hr
  · rename_i heq
    exact protocolName_injective (hname.symm.trans (not_not.1 heq))

namespace Connection

def close (c : Connection) : Connection := { c with stage := .closed }

def write (c : Connection) (e : ServerEvent) : Connection := { c with wire := c.wire ++ [e] }

def onHello (c : Connection) : Option DisplayRequest → Connection
  | some (.hello h) =>
      { c with
        hello := some h
        stage := (h.refusal quoted).elim .welcoming .refusing }
  | _ => c.close

def onRegister (c : Connection) : Option DisplayRequest → Connection
  | some (.registerDisplay r) => { c with stage := .registering r }
  | _ => c.close

/-! ## The frame loop -/

/-- Sends an event of the stream, or ends the frame loop. -/
def stream (c : Connection) (d : DisplayId) (ok : Bool) (w : WireEvent) : Connection :=
  if ok then c.write (.stream w) else { c with stage := .closing d }

def onEvent (c : Connection) (snapshots : RendererId → Option BindSnapshot) (d : DisplayId)
    (ok : Bool) : DisplayOutEvent → Connection
  | .bind r =>
      let c := { c with boundRenderer := some r }
      match (snapshots r).filter (·.consistent) with
      | some snap => c.stream d ok (.bindBuffers r snap)
      | none => { c with stage := .closing d }
  | .unbind g => { c with boundRenderer := none, latestConfig := none }.stream d ok (.unbind g)
  | .setConfig cfg => { c with latestConfig := some cfg }.stream d ok (.setConfig cfg)
  | .frame r g index seq _ _ => c.stream d ok (.frameReady r g index seq)

def onPointer (c : Connection) (subscribedTo : RendererId → Bool) (p : PointerEvent) :
    Connection :=
  match c.boundRenderer, c.latestConfig with
  | some r, some cfg =>
      match displayPointToTexture p.x p.y cfg with
      | some t =>
          if subscribedTo r then
            { c with forwarded := c.forwarded ++ [⟨r, t, p, c.wire.length⟩] }
          else c
      | none => c
  | _, _ => c

/-- A hello or a registration comes too late to matter. -/
def onRequest (c : Connection) (subscribedTo : RendererId → Bool) (d : DisplayId) :
    DisplayRequest → Connection
  | .client q =>
      match EndpointCall.request d q with
      | some calls => { c with calls := c.calls ++ calls }
      | none => { c with stage := .closing d }
  | .pointer p => c.onPointer subscribedTo p
  | .hello _ => c
  | .registerDisplay _ => c

end Connection

namespace Endpoint

variable (s : Endpoint)

def subscribedTo (kind : String) (r : RendererId) : Bool :=
  (s.eventsSubscribed r).any (·.contains kind)

def put (i : ℕ) (c : Connection) : Endpoint := { s with connections := s.connections.set i c }

/-- A request, or `none` if none is to come. -/
def received : ConnectionAct → Option (Option DisplayRequest)
  | .receive q => some (some q)
  | .lost => some none
  | .stop => if s.shutdown then some none else none
  | _ => none

/-- Whether something can be sent. -/
def sent : ConnectionAct → Option Bool
  | .tick => some true
  | .fail => some false
  | _ => none

/-- The next event of the channel, which is closed when the router does not know the display. -/
def deliver (c : Connection) (d : DisplayId) (ok : Bool) : Option Connection :=
  match (s.channels d)[c.taken]? with
  | some e => some ({ c with taken := c.taken + 1 }.onEvent s.snapshots d ok e)
  | none => if s.inner.displays.containsKey d then none else some { c with stage := .closing d }

def serve (c : Connection) (d : DisplayId) : ConnectionAct → Option Connection
  | .tick => s.deliver c d true
  | .fail => s.deliver c d false
  | .receive q => some (c.onRequest (s.subscribedTo "pointer") d q)
  | .lost => some { c with stage := .closing d }
  | .stop => if s.shutdown then some { c with stage := .closing d } else none

/-- The refusal is announced whether or not the client could be told. -/
def refuse (c : Connection) (r : Refusal) (ok : Bool) : Connection × List DisplayConnectionFailed :=
  ((if ok then c.write (.error r.code r.message) else c).close,
    c.hello.toList.map fun h => ⟨h.clientName, h.clientProtocolVersion, r.code, r.message⟩)

/-- A step of the task of connection `i`. -/
def advance (i : ℕ) (c : Connection) (a : ConnectionAct) : Option Endpoint :=
  match c.stage with
  | .awaitingHello => (s.received a).map fun q => s.put i (c.onHello quoted q)
  | .refusing r => (sent a).map fun ok =>
      let (c, failures) := refuse c r ok
      { s.put i c with failures := s.failures ++ failures }
  | .welcoming => (sent a).map fun ok =>
      s.put i (if ok then
        { c.write (.welcome serverVersion advertisedFeatures) with stage := .awaitingRegister }
      else c.close)
  | .awaitingRegister => (s.received a).map fun q => s.put i (c.onRegister q)
  | .registering r => (sent a).map fun _ =>
      let (inner, d, _) := s.inner.registerDisplay r.registration
      { s.put i { c with stage := .accepting d, display := some d } with inner := inner }
  | .accepting d => (sent a).map fun ok =>
      -- the display stays registered when the connection ends here
      s.put i (if ok then { c.write (.displayAccepted d) with stage := .serving d } else c.close)
  | .serving d => (s.serve c d a).map fun c => s.put i c
  | .closing d => (sent a).map fun _ =>
      { s.put i c.close with inner := s.inner.unregisterDisplay d }
  | .closed => none

/-- Only the endpoint registers and unregisters displays. -/
def keepsDisplays : RouterCall → Bool
  | .registerDisplay _ _ => false
  | .unregisterDisplay _ => false
  | _ => true

def step (s : Endpoint) : EndpointLabel → Option Endpoint
  | .accept =>
      if s.shutdown then none else some { s with connections := s.connections ++ [{}] }
  | .shutdown => some { s with shutdown := true }
  | .router c daemon =>
      if keepsDisplays c then
        some { s with inner := c.innerAfter { daemon with inner := s.inner } }
      else none
  | .send d e =>
      if s.inner.displays.containsKey d then
        some { s with channels := Function.update s.channels d (s.channels d ++ [e]) }
      else none
  | .setSnapshot r snap => some { s with snapshots := Function.update s.snapshots r snap }
  | .setEventsSubscribed r events =>
      some { s with eventsSubscribed := Function.update s.eventsSubscribed r events }
  | .connection i a => s.connections[i]?.bind fun c => s.advance quoted i c a

/-! ## What a step does -/

/-- The greeting of a client that is let in. -/
def greeting : ServerEvent := .welcome serverVersion advertisedFeatures

/-- What a step of a connection's task makes of the connection and of the router, and the failures
it announces. -/
inductive Moves (c : Connection) :
    Connection → Inner → List DisplayConnectionFailed → Prop
  | hello (q : Option DisplayRequest) (h : c.stage = .awaitingHello) :
      Moves c (c.onHello quoted q) s.inner []
  | refuse {r : Refusal} (ok : Bool) (h : c.stage = .refusing r) :
      Moves c (refuse c r ok).1 s.inner (refuse c r ok).2
  | welcome (h : c.stage = .welcoming) :
      Moves c { c.write greeting with stage := .awaitingRegister } s.inner []
  | register (q : Option DisplayRequest) (h : c.stage = .awaitingRegister) :
      Moves c (c.onRegister q) s.inner []
  | registered {r : RegisterDisplay} (h : c.stage = .registering r) :
      Moves c { c with
        stage := .accepting (s.inner.nextDisplayId + 1)
        display := some (s.inner.nextDisplayId + 1) } (s.inner.registerDisplay r.registration).1 []
  | accepted {d : DisplayId} (h : c.stage = .accepting d) :
      Moves c { c.write (.displayAccepted d) with stage := .serving d } s.inner []
  | event {d : DisplayId} {e : DisplayOutEvent} (ok : Bool) (h : c.stage = .serving d)
      (he : (s.channels d)[c.taken]? = some e) :
      Moves c ({ c with taken := c.taken + 1 }.onEvent s.snapshots d ok e) s.inner []
  | request {d : DisplayId} (q : DisplayRequest) (h : c.stage = .serving d) :
      Moves c (c.onRequest (s.subscribedTo "pointer") d q) s.inner []
  | leave {d : DisplayId} (h : c.stage = .serving d) :
      Moves c { c with stage := .closing d } s.inner []
  | unregister {d : DisplayId} (h : c.stage = .closing d) :
      Moves c c.close (s.inner.unregisterDisplay d) []
  | unwelcomed (h : c.stage = .welcoming) : Moves c c.close s.inner []
  | unaccepted {d : DisplayId} (h : c.stage = .accepting d) : Moves c c.close s.inner []

variable {s} {t : Endpoint} {c c' : Connection} {i : ℕ} {a : ConnectionAct} {d : DisplayId}

theorem moves_of_serve (h : c.stage = .serving d) (hserve : s.serve c d a = some c') :
    s.Moves quoted c c' s.inner [] := by
  have hdeliver (ok : Bool) (hok : s.deliver c d ok = some c') : s.Moves quoted c c' s.inner [] := by
    rw [deliver] at hok
    cases he : (s.channels d)[c.taken]? with
    | some e =>
      rw [he] at hok
      cases hok
      exact .event ok h he
    | none =>
      rw [he] at hok
      obtain ⟨-, hok⟩ := Option.ite_none_left_eq_some.1 hok
      cases hok
      exact .leave h
  cases a with
  | tick => exact hdeliver true hserve
  | fail => exact hdeliver false hserve
  | receive q =>
    cases hserve
    exact .request q h
  | lost =>
    cases hserve
    exact .leave h
  | stop =>
    obtain ⟨-, hserve⟩ := Option.ite_none_right_eq_some.1 hserve
    cases hserve
    exact .leave h

theorem moves_of_advance (h : s.advance quoted i c a = some t) :
    ∃ c' inner failures, s.Moves quoted c c' inner failures ∧
      t = { s with
        inner := inner
        connections := s.connections.set i c'
        failures := s.failures ++ failures } := by
  have hput (c : Connection) : s.put i c = { s with
      connections := s.connections.set i c
      failures := s.failures ++ [] } := by
    rw [List.append_nil]
    rfl
  rw [advance] at h
  cases hstage : c.stage with
  | awaitingHello =>
    rw [hstage] at h
    obtain ⟨q, -, rfl⟩ := Option.map_eq_some_iff.1 h
    exact ⟨_, _, _, .hello q hstage, hput _⟩
  | refusing r =>
    rw [hstage] at h
    obtain ⟨ok, -, rfl⟩ := Option.map_eq_some_iff.1 h
    exact ⟨_, _, _, .refuse ok hstage, rfl⟩
  | welcoming =>
    rw [hstage] at h
    obtain ⟨ok, -, rfl⟩ := Option.map_eq_some_iff.1 h
    cases ok with
    | true => exact ⟨_, _, _, .welcome hstage, hput _⟩
    | false => exact ⟨_, _, _, .unwelcomed hstage, hput _⟩
  | awaitingRegister =>
    rw [hstage] at h
    obtain ⟨q, -, rfl⟩ := Option.map_eq_some_iff.1 h
    exact ⟨_, _, _, .register q hstage, hput _⟩
  | registering r =>
    rw [hstage] at h
    obtain ⟨ok, -, rfl⟩ := Option.map_eq_some_iff.1 h
    refine ⟨_, _, _, .registered hstage, ?_⟩
    rw [List.append_nil]
    rfl
  | accepting d =>
    rw [hstage] at h
    obtain ⟨ok, -, rfl⟩ := Option.map_eq_some_iff.1 h
    cases ok with
    | true => exact ⟨_, _, _, .accepted hstage, hput _⟩
    | false => exact ⟨_, _, _, .unaccepted hstage, hput _⟩
  | serving d =>
    rw [hstage] at h
    obtain ⟨c', hserve, rfl⟩ := Option.map_eq_some_iff.1 h
    exact ⟨_, _, _, moves_of_serve quoted hstage hserve, hput _⟩
  | closing d =>
    rw [hstage] at h
    obtain ⟨ok, -, rfl⟩ := Option.map_eq_some_iff.1 h
    refine ⟨_, _, _, .unregister hstage, ?_⟩
    rw [List.append_nil]
    rfl
  | closed =>
    rw [hstage] at h
    cases h

end Endpoint

end Waywallen
