import Waywallen.Apply.Roster
import Waywallen.Display.Connection

/-!
# What a display client is told

A connection starts with one error or with a welcome, and then carries what the router sends to the
display of the connection. The router's displays are those of the open connections, and of those
that ended before the client could be told which display it was given.
-/

namespace Waywallen

variable (quoted : String → String)

/-- What of the router's events is written, an event at a time. -/
inductive Carries : DisplayOutEvent → WireEvent → Prop
  | bind {r : RendererId} {snap : BindSnapshot} (h : snap.consistent = true) :
      Carries (.bind r) (.bindBuffers r snap)
  | unbind (g : ℕ) : Carries (.unbind g) (.unbind g)
  | setConfig (cfg : ProjectedConfig) : Carries (.setConfig cfg) (.setConfig cfg)
  | frame (r : RendererId) (g index seq point count : ℕ) :
      Carries (.frame r g index seq point count) (.frameReady r g index seq)

/-- The renderer and the configuration that a client shows after one more event. -/
def ServerEvent.shows (p : Option RendererId × Option ProjectedConfig) :
    ServerEvent → Option RendererId × Option ProjectedConfig
  | .stream (.bindBuffers r _) => (some r, p.2)
  | .stream (.unbind _) => (none, none)
  | .stream (.setConfig cfg) => (p.1, some cfg)
  | _ => p

def onScreen (wire : List ServerEvent) : Option RendererId × Option ProjectedConfig :=
  wire.foldl ServerEvent.shows (none, none)

theorem onScreen_concat (wire : List ServerEvent) (e : ServerEvent) :
    onScreen (wire ++ [e]) = e.shows (onScreen wire) := List.foldl_concat ..

namespace Connection

open Endpoint (greeting)

/-- The connection's hello was let in. -/
def Welcomed (c : Connection) : Prop := ∃ h, c.hello = some h ∧ h.refusal quoted = none

/-- The client was given its display, and then events of the display's channel, in their order and
without a gap. -/
def Served (channels : DisplayId → List DisplayOutEvent) (c : Connection) (d : DisplayId) : Prop :=
  c.display = some d ∧ ∃ ws, c.wire = greeting :: .displayAccepted d :: ws.map .stream ∧
    List.Forall₂ Carries ((channels d).take ws.length) ws

/-- Nothing is said, or one error, or a welcome and what follows it. -/
def Spoken (channels : DisplayId → List DisplayOutEvent) (c : Connection) : Prop :=
  c.wire = [] ∨
  (∃ h r, c.hello = some h ∧ h.refusal quoted = some r ∧ c.wire = [.error r.code r.message]) ∨
  c.Welcomed quoted ∧ (c.wire = [greeting] ∨ ∃ d, c.Served channels d)

/-- A pointer event goes to the renderer that the client showed when it came in, at the point of
the texture that the client showed there. -/
def Pointed (c : Connection) : Prop :=
  ∀ f ∈ c.forwarded, f.sent ≤ c.wire.length ∧ ∃ cfg,
    onScreen (c.wire.take f.sent) = (some f.renderer, some cfg) ∧
      displayPointToTexture f.event.x f.event.y cfg = some f.point

/-- What is asked of the router concerns the client's own display. -/
def Confined (c : Connection) : Prop :=
  ∀ call ∈ c.calls, ∃ d q calls, c.display = some d ∧ EndpointCall.request d q = some calls ∧
    call ∈ calls

/-- What is known of a connection at each stage. -/
def Known (channels : DisplayId → List DisplayOutEvent) (c : Connection) : Prop :=
  match c.stage with
  | .awaitingHello => c = {}
  | .refusing r => ∃ h, h.refusal quoted = some r ∧ c = { stage := .refusing r, hello := some h }
  | .welcoming => ∃ h, h.refusal quoted = none ∧ c = { stage := .welcoming, hello := some h }
  | .awaitingRegister => ∃ h, h.refusal quoted = none ∧
      c = { stage := .awaitingRegister, hello := some h, wire := [greeting] }
  | .registering r => ∃ h, h.refusal quoted = none ∧
      c = { stage := .registering r, hello := some h, wire := [greeting] }
  | .accepting d => ∃ h, h.refusal quoted = none ∧
      c = { stage := .accepting d, hello := some h, display := some d, wire := [greeting] }
  | .serving d => c.Welcomed quoted ∧ c.Served channels d ∧ c.wire.length = c.taken + 2 ∧
      onScreen c.wire = (c.boundRenderer, c.latestConfig)
  | .closing d => c.Welcomed quoted ∧ c.Served channels d
  | .closed => True

structure Proper (channels : DisplayId → List DisplayOutEvent) (c : Connection) : Prop where
  known : c.Known quoted channels
  spoken : c.Spoken quoted channels
  pointed : c.Pointed
  confined : c.Confined

variable {quoted} {channels : DisplayId → List DisplayOutEvent} {c c' : Connection} {d : DisplayId}

/-- An event of the channel is written, or ends the frame loop. -/
theorem onEvent_cases (c : Connection) (snapshots : RendererId → Option BindSnapshot)
    (d : DisplayId) (ok : Bool) (e : DisplayOutEvent) :
    (∃ w b cfg, Carries e w ∧
      (ServerEvent.stream w).shows (c.boundRenderer, c.latestConfig) = (b, cfg) ∧
      c.onEvent snapshots d ok e =
        { c.write (.stream w) with boundRenderer := b, latestConfig := cfg }) ∨
    ∃ b cfg, c.onEvent snapshots d ok e =
      { c with stage := .closing d, boundRenderer := b, latestConfig := cfg } := by
  cases e with
  | bind r =>
    rw [onEvent]
    cases hsnap : (snapshots r).filter (·.consistent) with
    | none => exact .inr ⟨_, _, rfl⟩
    | some snap =>
      cases ok with
      | true => exact .inl ⟨_, _, _, .bind (Option.filter_eq_some_iff.1 hsnap).2, rfl, rfl⟩
      | false => exact .inr ⟨_, _, rfl⟩
  | unbind g =>
    cases ok with
    | true => exact .inl ⟨_, _, _, .unbind g, rfl, rfl⟩
    | false => exact .inr ⟨_, _, rfl⟩
  | setConfig cfg =>
    cases ok with
    | true => exact .inl ⟨_, _, _, .setConfig cfg, rfl, rfl⟩
    | false => exact .inr ⟨_, _, rfl⟩
  | frame r g index seq point count =>
    cases ok with
    | true => exact .inl ⟨_, _, _, .frame r g index seq point count, rfl, rfl⟩
    | false => exact .inr ⟨_, _, rfl⟩

theorem onPointer_cases (c : Connection) (subscribedTo : RendererId → Bool) (p : PointerEvent) :
    c.onPointer subscribedTo p = c ∨ ∃ r cfg t, c.boundRenderer = some r ∧
      c.latestConfig = some cfg ∧ displayPointToTexture p.x p.y cfg = some t ∧
      c.onPointer subscribedTo p =
        { c with forwarded := c.forwarded ++ [⟨r, t, p, c.wire.length⟩] } := by
  rw [onPointer]
  cases hr : c.boundRenderer with
  | none => exact .inl rfl
  | some r =>
    cases hcfg : c.latestConfig with
    | none => exact .inl rfl
    | some cfg =>
      dsimp only
      cases ht : displayPointToTexture p.x p.y cfg with
      | none => exact .inl rfl
      | some t =>
        dsimp only
        split
        · exact .inr ⟨r, cfg, t, rfl, rfl, ht, rfl⟩
        · exact .inl rfl

/-- Nothing has been asked of the rest of the daemon yet. -/
theorem Proper.of_quiet (hknown : c.Known quoted channels) (hspoken : c.Spoken quoted channels)
    (hforwarded : c.forwarded = []) (hcalls : c.calls = []) : c.Proper quoted channels where
  known := hknown
  spoken := hspoken
  pointed f hf := by
    rw [hforwarded] at hf
    exact absurd hf List.not_mem_nil
  confined call hcall := by
    rw [hcalls] at hcall
    exact absurd hcall List.not_mem_nil

theorem Served.spoken (hw : c.Welcomed quoted) (h : c.Served channels d) :
    c.Spoken quoted channels := .inr (.inr ⟨hw, .inr ⟨d, h⟩⟩)

theorem Pointed.write (h : c.Pointed) (e : ServerEvent) : (c.write e).Pointed := by
  intro f hf
  obtain ⟨hle, hshown⟩ := h f hf
  rw [Connection.write, List.take_append_of_le_length hle, List.length_append]
  exact ⟨Nat.le_add_right_of_le hle, hshown⟩

/-- Only what a client is told and what is asked for it matters. -/
theorem Pointed.congr (h : c.Pointed) (hwire : c'.wire = c.wire)
    (hforwarded : c'.forwarded = c.forwarded) : c'.Pointed := by
  intro f hf
  rw [hforwarded] at hf
  rw [hwire]
  exact h f hf

theorem Confined.congr (h : c.Confined) (hdisplay : c'.display = c.display)
    (hcalls : c'.calls = c.calls) : c'.Confined := by
  intro call hcall
  rw [hcalls] at hcall
  rw [hdisplay]
  exact h call hcall

theorem Served.congr (h : c.Served channels d) (hdisplay : c'.display = c.display)
    (hwire : c'.wire = c.wire) : c'.Served channels d := by
  rw [Served, hdisplay, hwire]
  exact h

theorem Proper.closing (h : c.Proper quoted channels) (hw : c.Welcomed quoted)
    (hserved : c.Served channels d) (b : Option RendererId) (cfg : Option ProjectedConfig)
    (n : ℕ) : Proper quoted channels
      { c with stage := .closing d, taken := n, boundRenderer := b, latestConfig := cfg } where
  known := ⟨hw, hserved.congr rfl rfl⟩
  spoken := (hserved.congr rfl rfl).spoken hw
  pointed := h.pointed.congr rfl rfl
  confined := h.confined.congr rfl rfl

theorem Proper.close (h : c.Proper quoted channels) : c.close.Proper quoted channels where
  known := trivial
  spoken := h.spoken
  pointed := h.pointed
  confined := h.confined

theorem Served.event (h : c.Served channels d) (hlen : c.wire.length = c.taken + 2)
    {e : DisplayOutEvent} {w : WireEvent} (he : (channels d)[c.taken]? = some e)
    (hw : Carries e w) : (c.write (.stream w)).Served channels d := by
  obtain ⟨hdisplay, ws, hwire, hcarries⟩ := h
  have hws : ws.length = c.taken := by
    rw [hwire] at hlen
    simpa using hlen
  refine ⟨hdisplay, ws ++ [w], ?_, ?_⟩
  · rw [Connection.write, hwire, List.map_append]
    rfl
  · rw [List.length_append, List.length_singleton, List.take_add_one, hws, he]
    exact List.rel_append (hws ▸ hcarries) (.cons hw .nil)

theorem Proper.onHello (q : Option DisplayRequest) :
    Proper quoted channels (Connection.onHello quoted {} q) := by
  have hclose : Proper quoted channels (Connection.close {}) :=
    .of_quiet trivial (.inl rfl) rfl rfl
  match q with
  | some (.hello h) =>
    refine .of_quiet ?_ (.inl rfl) rfl rfl
    rw [Connection.onHello]
    cases hr : h.refusal quoted with
    | none => exact ⟨h, hr, rfl⟩
    | some r => exact ⟨h, hr, rfl⟩
  | some (.registerDisplay _) => exact hclose
  | some (.pointer _) => exact hclose
  | some (.client _) => exact hclose
  | none => exact hclose

theorem Proper.onRegister (q : Option DisplayRequest) {h : Hello} (hr : h.refusal quoted = none) :
    Proper quoted channels (Connection.onRegister
      { stage := .awaitingRegister, hello := some h, wire := [greeting] } q) := by
  have hspoken (stage : ConnectionStage) : Connection.Spoken quoted channels
      { stage := stage, hello := some h, wire := [greeting] } :=
    .inr (.inr ⟨⟨h, rfl, hr⟩, .inl rfl⟩)
  have hclose : Proper quoted channels
      { stage := .closed, hello := some h, wire := [greeting] } :=
    .of_quiet trivial (hspoken _) rfl rfl
  match q with
  | some (.registerDisplay _) => exact .of_quiet ⟨h, hr, rfl⟩ (hspoken _) rfl rfl
  | some (.hello _) => exact hclose
  | some (.pointer _) => exact hclose
  | some (.client _) => exact hclose
  | none => exact hclose

theorem Proper.onEvent (h : c.Proper quoted channels) (hstage : c.stage = .serving d)
    {e : DisplayOutEvent} (he : (channels d)[c.taken]? = some e)
    (snapshots : RendererId → Option BindSnapshot) (ok : Bool) :
    Proper quoted channels ({ c with taken := c.taken + 1 }.onEvent snapshots d ok e) := by
  have hknown := h.known
  rw [Known, hstage] at hknown
  obtain ⟨hw, hserved, hlen, hshown⟩ := hknown
  obtain ⟨w, b, cfg, hcarries, hshows, heq⟩ | ⟨b, cfg, heq⟩ :=
    onEvent_cases { c with taken := c.taken + 1 } snapshots d ok e
  · rw [heq]
    have hnext : (c.write (.stream w)).Served channels d := hserved.event hlen he hcarries
    constructor
    case known =>
      rw [Known, Connection.write, hstage]
      refine ⟨hw, hnext.congr rfl rfl, ?_, ?_⟩
      · rw [List.length_append, hlen, List.length_singleton]
      · rw [onScreen_concat, hshown]
        exact hshows
    case spoken => exact (hnext.congr rfl rfl).spoken hw
    case pointed => exact (h.pointed.write (.stream w)).congr rfl rfl
    case confined => exact h.confined.congr rfl rfl
  · rw [heq]
    exact h.closing hw hserved b cfg _

theorem Proper.onRequest (h : c.Proper quoted channels) (hstage : c.stage = .serving d)
    (subscribedTo : RendererId → Bool) (q : DisplayRequest) :
    (c.onRequest subscribedTo d q).Proper quoted channels := by
  have hknown := h.known
  rw [Known, hstage] at hknown
  obtain ⟨hw, hserved, hlen, hshown⟩ := hknown
  cases q with
  | hello h' => exact h
  | registerDisplay r => exact h
  | client q =>
    rw [Connection.onRequest]
    cases hq : EndpointCall.request d q with
    | none => exact h.closing hw hserved _ _ _
    | some calls =>
      constructor
      case known =>
        rw [Known, hstage]
        exact ⟨hw, hserved.congr rfl rfl, hlen, hshown⟩
      case spoken => exact (hserved.congr rfl rfl).spoken hw
      case pointed => exact h.pointed.congr rfl rfl
      case confined =>
        intro call hcall
        obtain hcall | hcall := List.mem_append.1 hcall
        · exact h.confined call hcall
        · exact ⟨d, q, calls, hserved.1, hq, hcall⟩
  | pointer p =>
    obtain heq | ⟨r, cfg, t, hr, hcfg, ht, heq⟩ := onPointer_cases c subscribedTo p
    · rw [Connection.onRequest, heq]
      exact h
    · rw [Connection.onRequest, heq]
      constructor
      case known =>
        rw [Known, hstage]
        exact ⟨hw, hserved.congr rfl rfl, hlen, hshown⟩
      case spoken => exact (hserved.congr rfl rfl).spoken hw
      case pointed =>
        intro f hf
        obtain hf | hf := List.mem_append.1 hf
        · exact h.pointed f hf
        · rw [List.mem_singleton.1 hf]
          refine ⟨le_rfl, cfg, ?_, ht⟩
          rw [List.take_length, hshown, hr, hcfg]
      case confined => exact h.confined.congr rfl rfl

/-- A step of its task keeps a connection proper. -/
theorem Proper.moves {s : Endpoint} {inner : Inner} {failures : List DisplayConnectionFailed}
    (h : c.Proper quoted s.channels) (hmoves : s.Moves quoted c c' inner failures) :
    c'.Proper quoted s.channels := by
  have hknown := h.known
  cases hmoves with
  | hello q hstage =>
    rw [Known, hstage] at hknown
    rw [hknown]
    exact .onHello q
  | @refuse r ok hstage =>
    rw [Known, hstage] at hknown
    obtain ⟨h', hr, rfl⟩ := hknown
    cases ok with
    | true => exact .of_quiet trivial (.inr (.inl ⟨h', r, rfl, hr, rfl⟩)) rfl rfl
    | false => exact .of_quiet trivial (.inl rfl) rfl rfl
  | welcome hstage =>
    rw [Known, hstage] at hknown
    obtain ⟨h', hr, rfl⟩ := hknown
    exact .of_quiet ⟨h', hr, rfl⟩ (.inr (.inr ⟨⟨h', rfl, hr⟩, .inl rfl⟩)) rfl rfl
  | register q hstage =>
    rw [Known, hstage] at hknown
    obtain ⟨h', hr, rfl⟩ := hknown
    exact .onRegister q hr
  | registered hstage =>
    rw [Known, hstage] at hknown
    obtain ⟨h', hr, rfl⟩ := hknown
    exact .of_quiet ⟨h', hr, rfl⟩ (.inr (.inr ⟨⟨h', rfl, hr⟩, .inl rfl⟩)) rfl rfl
  | @accepted d hstage =>
    rw [Known, hstage] at hknown
    obtain ⟨h', hr, rfl⟩ := hknown
    have hserved : Served s.channels
        { stage := .serving d
          hello := some h'
          display := some d
          wire := [greeting, .displayAccepted d] } d := ⟨rfl, [], rfl, .nil⟩
    exact .of_quiet ⟨⟨h', rfl, hr⟩, hserved, rfl, rfl⟩ (hserved.spoken ⟨h', rfl, hr⟩) rfl rfl
  | event ok hstage he => exact h.onEvent hstage he _ ok
  | request q hstage => exact h.onRequest hstage _ q
  | leave hstage =>
    rw [Known, hstage] at hknown
    exact h.closing hknown.1 hknown.2.1 _ _ _
  | unregister hstage => exact h.close
  | unwelcomed hstage => exact h.close
  | unaccepted hstage => exact h.close

theorem take_update_append {n : ℕ} (d d' : DisplayId) (e : DisplayOutEvent)
    (hn : n ≤ (channels d).length) :
    (Function.update channels d' (channels d' ++ [e]) d).take n = (channels d).take n := by
  by_cases hd : d = d'
  · subst hd
    rw [Function.update_self, List.take_append_of_le_length hn]
  · rw [Function.update_of_ne hd]

theorem Served.send (h : c.Served channels d) (d' : DisplayId) (e : DisplayOutEvent) :
    c.Served (Function.update channels d' (channels d' ++ [e])) d := by
  obtain ⟨hdisplay, ws, hwire, hcarries⟩ := h
  have hlen : ws.length ≤ (channels d).length := by
    have htake := hcarries.length_eq
    rw [List.length_take] at htake
    exact htake ▸ Nat.min_le_right _ _
  refine ⟨hdisplay, ws, hwire, ?_⟩
  rwa [take_update_append d d' e hlen]

/-- More on a channel does not change what has been taken off it. -/
theorem Proper.send (h : c.Proper quoted channels) (d' : DisplayId) (e : DisplayOutEvent) :
    c.Proper quoted (Function.update channels d' (channels d' ++ [e])) where
  known := by
    have hknown := h.known
    rw [Known] at hknown ⊢
    cases hstage : c.stage with
    | serving d =>
      rw [hstage] at hknown
      exact ⟨hknown.1, hknown.2.1.send d' e, hknown.2.2⟩
    | closing d =>
      rw [hstage] at hknown
      exact ⟨hknown.1, hknown.2.send d' e⟩
    | _ =>
      rw [hstage] at hknown
      exact hknown
  spoken := h.spoken.imp_right fun hspoken => hspoken.imp_right fun ⟨hw, hspoken⟩ =>
    ⟨hw, hspoken.imp_right fun ⟨d, hserved⟩ => ⟨d, hserved.send d' e⟩⟩
  pointed := h.pointed
  confined := h.confined

/-! ## Who holds a display -/

/-- A connection that is open, or that ended before it could say which display it was given. -/
def Holds (c : Connection) (d : DisplayId) : Prop :=
  c.display = some d ∧ (c.stage ≠ .closed ∨ c.wire.length = 1)

/-- What was announced of a connection that is over. -/
def failure (quoted : String → String) (c : Connection) : Option DisplayConnectionFailed :=
  match c.stage with
  | .closed => c.hello.bind fun h => (h.refusal quoted).map fun r =>
      ⟨h.clientName, h.clientProtocolVersion, r.code, r.message⟩
  | _ => none

theorem holds_iff (h : c.stage ≠ .closed ∨ c.wire.length = 1) :
    c.Holds d ↔ c.display = some d := and_iff_left h

theorem not_holds (h : c.display = none) : ¬c.Holds d := fun hd => by
  rw [Holds, h] at hd
  exact Option.some_ne_none d hd.1.symm

theorem display_onHello (c : Connection) (q : Option DisplayRequest) :
    (c.onHello quoted q).display = c.display := by
  match q with
  | some (.hello _) => rfl
  | some (.registerDisplay _) => rfl
  | some (.pointer _) => rfl
  | some (.client _) => rfl
  | none => rfl

theorem display_onRegister (c : Connection) (q : Option DisplayRequest) :
    (c.onRegister q).display = c.display := by
  match q with
  | some (.hello _) => rfl
  | some (.registerDisplay _) => rfl
  | some (.pointer _) => rfl
  | some (.client _) => rfl
  | none => rfl

/-- The frame loop does not end the connection by itself. -/
theorem onRequest_cases (c : Connection) (subscribedTo : RendererId → Bool) (q : DisplayRequest) :
    (c.onRequest subscribedTo d q).display = c.display ∧
      ((c.onRequest subscribedTo d q).stage = c.stage ∨
        (c.onRequest subscribedTo d q).stage = .closing d) := by
  cases q with
  | hello _ => exact ⟨rfl, .inl rfl⟩
  | registerDisplay _ => exact ⟨rfl, .inl rfl⟩
  | client q =>
    rw [Connection.onRequest]
    cases EndpointCall.request d q with
    | none => exact ⟨rfl, .inr rfl⟩
    | some calls => exact ⟨rfl, .inl rfl⟩
  | pointer p =>
    rw [Connection.onRequest]
    obtain heq | ⟨r, cfg, t, -, -, -, heq⟩ := onPointer_cases c subscribedTo p
    · rw [heq]
      exact ⟨rfl, .inl rfl⟩
    · rw [heq]
      exact ⟨rfl, .inl rfl⟩

end Connection

namespace Endpoint

/-- How the router's displays follow a step of a connection: it keeps what it holds, gets a display
or gives it back. -/
inductive Passes (s : Endpoint) (c c' : Connection) : Inner → Prop
  | keep (hdisplay : c'.display = c.display) (hholds : ∀ d, c'.Holds d ↔ c.Holds d) :
      Passes s c c' s.inner
  | register (reg : DisplayRegistration) (hnone : c.display = none)
      (hdisplay : c'.display = some (s.inner.nextDisplayId + 1)) (hopen : c'.stage ≠ .closed) :
      Passes s c c' (s.inner.registerDisplay reg).1
  | unregister {d : DisplayId} (hdisplay : c.display = some d) (hsame : c'.display = some d)
      (hopen : c.stage ≠ .closed) (hover : ¬c'.Holds d) :
      Passes s c c' (s.inner.unregisterDisplay d)

variable {quoted} {s t : Endpoint} {c c' : Connection} {inner : Inner}
  {failures : List DisplayConnectionFailed} {d : DisplayId}

theorem Passes.keep_open (hdisplay : c'.display = c.display)
    (h : c.stage ≠ .closed) (h' : c'.stage ≠ .closed ∨ c'.wire.length = 1) :
    s.Passes c c' s.inner := by
  refine .keep hdisplay fun d => ?_
  rw [Connection.holds_iff (.inl h), Connection.holds_iff h', hdisplay]

theorem Passes.keep_none (h : c.display = none) (h' : c'.display = none) :
    s.Passes c c' s.inner :=
  .keep (h'.trans h.symm) fun _ => iff_of_false (Connection.not_holds h') (Connection.not_holds h)

theorem Moves.passes (hknown : c.Known quoted s.channels)
    (hmoves : s.Moves quoted c c' inner failures) : s.Passes c c' inner := by
  cases hmoves with
  | hello q hstage =>
    rw [Connection.Known, hstage] at hknown
    subst hknown
    exact .keep_none rfl (Connection.display_onHello _ q)
  | @refuse r ok hstage =>
    rw [Connection.Known, hstage] at hknown
    obtain ⟨h', -, rfl⟩ := hknown
    cases ok <;> exact .keep_none rfl rfl
  | welcome hstage =>
    rw [Connection.Known, hstage] at hknown
    obtain ⟨h', -, rfl⟩ := hknown
    exact .keep_none rfl rfl
  | register q hstage =>
    rw [Connection.Known, hstage] at hknown
    obtain ⟨h', -, rfl⟩ := hknown
    exact .keep_none rfl (Connection.display_onRegister _ q)
  | registered hstage =>
    rw [Connection.Known, hstage] at hknown
    obtain ⟨h', -, rfl⟩ := hknown
    exact .register _ rfl rfl ConnectionStage.noConfusion
  | accepted hstage =>
    exact .keep_open rfl (hstage ▸ ConnectionStage.noConfusion) (.inl ConnectionStage.noConfusion)
  | @event d e ok hstage he =>
    have hopen : c.stage ≠ .closed := hstage ▸ ConnectionStage.noConfusion
    obtain ⟨w, b, cfg, -, -, heq⟩ | ⟨b, cfg, heq⟩ :=
      Connection.onEvent_cases { c with taken := c.taken + 1 } s.snapshots d ok e
    · rw [heq]
      exact .keep_open rfl hopen (.inl hopen)
    · rw [heq]
      exact .keep_open rfl hopen (.inl ConnectionStage.noConfusion)
  | @request d q hstage =>
    have hopen : c.stage ≠ .closed := hstage ▸ ConnectionStage.noConfusion
    obtain ⟨hdisplay, hsame | hclosing⟩ :=
      Connection.onRequest_cases (d := d) c (s.subscribedTo "pointer") q
    · exact .keep_open hdisplay hopen (.inl (hsame ▸ hopen))
    · exact .keep_open hdisplay hopen (.inl (hclosing ▸ ConnectionStage.noConfusion))
  | leave hstage =>
    exact .keep_open rfl (hstage ▸ ConnectionStage.noConfusion) (.inl ConnectionStage.noConfusion)
  | unregister hstage =>
    have hopen : c.stage ≠ .closed := hstage ▸ ConnectionStage.noConfusion
    rw [Connection.Known, hstage] at hknown
    obtain ⟨-, hdisplay, ws, hwire, -⟩ := hknown
    refine .unregister hdisplay hdisplay hopen ?_
    rintro ⟨-, hclosed | hlen⟩
    · exact hclosed rfl
    · rw [Connection.close, hwire] at hlen
      simp at hlen
  | unwelcomed hstage =>
    rw [Connection.Known, hstage] at hknown
    obtain ⟨h', -, rfl⟩ := hknown
    exact .keep_none rfl rfl
  | unaccepted hstage =>
    have hopen : c.stage ≠ .closed := hstage ▸ ConnectionStage.noConfusion
    rw [Connection.Known, hstage] at hknown
    obtain ⟨h', -, rfl⟩ := hknown
    exact .keep_open rfl hopen (.inr rfl)

/-- A failure is announced when the connection is over, and is that of the connection. -/
theorem Moves.failures_eq (hknown : c.Known quoted s.channels)
    (hmoves : s.Moves quoted c c' inner failures) :
    c.failure quoted = none ∧ failures = (c'.failure quoted).toList := by
  have hopen (stage : ConnectionStage) (h : c.stage = stage) (hne : stage ≠ .closed) :
      c.failure quoted = none := by
    rw [Connection.failure]
    split
    · exact absurd (h.symm.trans ‹_›) hne
    · rfl
  have hclosed (hw : c.Welcomed quoted) : c.close.failure quoted = none := by
    obtain ⟨h', hhello, hr⟩ := hw
    rw [Connection.failure, Connection.close, hhello]
    exact congrArg (Option.map _) hr
  cases hmoves with
  | hello q hstage =>
    refine ⟨hopen _ hstage ConnectionStage.noConfusion, ?_⟩
    rw [Connection.Known, hstage] at hknown
    subst hknown
    match q with
    | some (.hello h') =>
      rw [Connection.onHello, Connection.failure]
      cases h'.refusal quoted <;> rfl
    | some (.registerDisplay _) => rfl
    | some (.pointer _) => rfl
    | some (.client _) => rfl
    | none => rfl
  | @refuse r ok hstage =>
    refine ⟨hopen _ hstage ConnectionStage.noConfusion, ?_⟩
    rw [Connection.Known, hstage] at hknown
    obtain ⟨h', hr, rfl⟩ := hknown
    have hfailure :
        (Endpoint.refuse { stage := .refusing r, hello := some h' } r ok).1.failure quoted = some ⟨h'.clientName, h'.clientProtocolVersion, r.code, r.message⟩ := by
      cases ok <;> exact congrArg (Option.map _) hr
    rw [hfailure]
    rfl
  | welcome hstage => exact ⟨hopen _ hstage ConnectionStage.noConfusion, rfl⟩
  | register q hstage =>
    refine ⟨hopen _ hstage ConnectionStage.noConfusion, ?_⟩
    rw [Connection.Known, hstage] at hknown
    obtain ⟨h', hr, rfl⟩ := hknown
    have hclosed := hclosed ⟨h', rfl, hr⟩
    match q with
    | some (.registerDisplay _) => rfl
    | some (.hello _) => exact congrArg Option.toList hclosed.symm
    | some (.pointer _) => exact congrArg Option.toList hclosed.symm
    | some (.client _) => exact congrArg Option.toList hclosed.symm
    | none => exact congrArg Option.toList hclosed.symm
  | registered hstage => exact ⟨hopen _ hstage ConnectionStage.noConfusion, rfl⟩
  | accepted hstage => exact ⟨hopen _ hstage ConnectionStage.noConfusion, rfl⟩
  | @event d e ok hstage he =>
    refine ⟨hopen _ hstage ConnectionStage.noConfusion, ?_⟩
    obtain ⟨w, b, cfg, -, -, heq⟩ | ⟨b, cfg, heq⟩ :=
      Connection.onEvent_cases { c with taken := c.taken + 1 } s.snapshots d ok e
    · rw [heq, Connection.failure, Connection.write, hstage]
      rfl
    · rw [heq]
      rfl
  | @request d q hstage =>
    refine ⟨hopen _ hstage ConnectionStage.noConfusion, ?_⟩
    obtain ⟨-, hsame | hclosing⟩ :=
      Connection.onRequest_cases (d := d) c (s.subscribedTo "pointer") q
    · rw [Connection.failure, hsame, hstage]
      rfl
    · rw [Connection.failure, hclosing]
      rfl
  | leave hstage => exact ⟨hopen _ hstage ConnectionStage.noConfusion, rfl⟩
  | unregister hstage =>
    refine ⟨hopen _ hstage ConnectionStage.noConfusion, ?_⟩
    rw [Connection.Known, hstage] at hknown
    rw [hclosed hknown.1]
    rfl
  | unwelcomed hstage =>
    refine ⟨hopen _ hstage ConnectionStage.noConfusion, ?_⟩
    rw [Connection.Known, hstage] at hknown
    obtain ⟨h', hr, rfl⟩ := hknown
    exact congrArg Option.toList (hclosed ⟨h', rfl, hr⟩).symm
  | unaccepted hstage =>
    refine ⟨hopen _ hstage ConnectionStage.noConfusion, ?_⟩
    rw [Connection.Known, hstage] at hknown
    obtain ⟨h', hr, rfl⟩ := hknown
    exact congrArg Option.toList (hclosed ⟨h', rfl, hr⟩).symm

/-- The displays of the router are those that connections hold, and no two have had one id. -/
structure Tracks (inner : Inner) (cs : List Connection) : Prop where
  le_next : ∀ c ∈ cs, ∀ d, c.display = some d → d ≤ inner.nextDisplayId
  nodup : (cs.filterMap (·.display)).Nodup
  registered : ∀ d, inner.displays.containsKey d = true ↔ ∃ c ∈ cs, c.Holds d

theorem Tracks.perm {cs cs' : List Connection} (h : Tracks inner cs) (hp : cs.Perm cs') :
    Tracks inner cs' where
  le_next c hc := h.le_next c (hp.mem_iff.2 hc)
  nodup := (hp.filterMap _).nodup_iff.1 h.nodup
  registered d := by
    rw [h.registered d]
    exact exists_congr fun c => and_congr_left fun _ => hp.mem_iff

theorem Tracks.passes {cs : List Connection} (h : Tracks s.inner (c :: cs))
    (hpasses : s.Passes c c' inner) : Tracks inner (c' :: cs) := by
  cases hpasses with
  | keep hdisplay hholds =>
    constructor
    case le_next =>
      intro x hx d hd
      obtain rfl | hx := List.mem_cons.1 hx
      · exact h.le_next c List.mem_cons_self d (hdisplay ▸ hd)
      · exact h.le_next x (List.mem_cons_of_mem _ hx) d hd
    case nodup =>
      have hnodup := h.nodup
      rw [List.filterMap_cons] at hnodup ⊢
      rwa [hdisplay]
    case registered =>
      intro d
      rw [h.registered d]
      simp only [List.exists_mem_cons_iff, hholds]
  | register reg hnone hdisplay hopen =>
    have hfresh : ∀ x ∈ cs, ∀ d, x.display = some d → d ≤ s.inner.nextDisplayId :=
      fun x hx => h.le_next x (List.mem_cons_of_mem _ hx)
    constructor
    case le_next =>
      intro x hx d hd
      obtain rfl | hx := List.mem_cons.1 hx
      · exact (Option.some_inj.1 (hd.symm.trans hdisplay)).le
      · exact (hfresh x hx d hd).trans (Nat.le_succ _)
    case nodup =>
      have hnodup := h.nodup
      rw [List.filterMap_cons, hnone] at hnodup
      rw [List.filterMap_cons, hdisplay]
      refine List.nodup_cons.2 ⟨fun hmem => ?_, hnodup⟩
      obtain ⟨x, hx, hd⟩ := List.mem_filterMap.1 hmem
      exact absurd (hfresh x hx _ hd) (Nat.not_succ_le_self _)
    case registered =>
      intro d
      have hkey : (s.inner.registerDisplay reg).1.displays.containsKey d = true ↔
          d = s.inner.nextDisplayId + 1 ∨ s.inner.displays.containsKey d = true := by
        rw [Inner.registerDisplay, HashMap.containsKey_insert, Bool.or_eq_true, decide_eq_true_eq]
      rw [hkey, h.registered d, List.exists_mem_cons_iff, List.exists_mem_cons_iff,
        Connection.holds_iff (.inl hopen), hdisplay, Option.some_inj,
        or_iff_right (Connection.not_holds hnone), eq_comm]
  | @unregister e hdisplay hsame hopen hover =>
    constructor
    case le_next =>
      intro x hx d hd
      obtain rfl | hx := List.mem_cons.1 hx
      · exact h.le_next c List.mem_cons_self d (hdisplay.trans (hsame.symm.trans hd))
      · exact h.le_next x (List.mem_cons_of_mem _ hx) d hd
    case nodup =>
      have hnodup := h.nodup
      rw [List.filterMap_cons, hdisplay] at hnodup
      rwa [List.filterMap_cons, hsame]
    case registered =>
      intro d
      have hkey : (s.inner.unregisterDisplay e).displays.containsKey d = true ↔
          d ≠ e ∧ s.inner.displays.containsKey d = true := by
        rw [Inner.unregisterDisplay, HashMap.containsKey_erase, Bool.and_eq_true,
          decide_eq_true_eq]
      have hnodup := h.nodup
      rw [List.filterMap_cons, hdisplay] at hnodup
      rw [hkey, h.registered d, List.exists_mem_cons_iff, List.exists_mem_cons_iff,
        Connection.holds_iff (.inl hopen), hdisplay, Option.some_inj]
      constructor
      · rintro ⟨hne, rfl | hx⟩
        · exact absurd rfl hne
        · exact .inr hx
      · rintro (hd | ⟨x, hx, hd⟩)
        · obtain rfl := Option.some_inj.1 (hsame.symm.trans hd.1)
          exact absurd hd hover
        · refine ⟨?_, .inr ⟨x, hx, hd⟩⟩
          rintro rfl
          exact (List.nodup_cons.1 hnodup).1 (List.mem_filterMap.2 ⟨x, hx, hd.1⟩)

/-! ## Runs -/

structure Sound (quoted : String → String) (s : Endpoint) : Prop where
  proper : ∀ c ∈ s.connections, c.Proper quoted s.channels
  tracks : Tracks s.inner s.connections
  failures : s.failures.Perm (s.connections.filterMap (·.failure quoted))

theorem exists_perm_set {α : Type} {l : List α} {a : α} {i : ℕ} (h : l[i]? = some a) :
    ∃ rest, l.Perm (a :: rest) ∧ ∀ b, (l.set i b).Perm (b :: rest) := by
  obtain ⟨hi, rfl⟩ := List.getElem?_eq_some_iff.1 h
  exact ⟨l.eraseIdx i, (List.getElem_cons_eraseIdx_perm hi).symm,
    fun b => List.set_perm_cons_eraseIdx hi b⟩

theorem Sound.advance {i : ℕ} {a : ConnectionAct} (h : s.Sound quoted)
    (hc : s.connections[i]? = some c) (hadvance : s.advance quoted i c a = some t) :
    t.Sound quoted := by
  obtain ⟨c', inner, failures, hmoves, rfl⟩ := moves_of_advance quoted hadvance
  obtain ⟨rest, hperm, hset⟩ := exists_perm_set hc
  have hproper := h.proper c (List.mem_of_getElem? hc)
  obtain ⟨hnone, hfailures⟩ := hmoves.failures_eq hproper.known
  constructor
  case proper =>
    intro x hx
    obtain rfl | hx := List.mem_cons.1 ((hset c').mem_iff.1 hx)
    · exact hproper.moves hmoves
    · exact h.proper x (hperm.mem_iff.2 (List.mem_cons_of_mem _ hx))
  case tracks =>
    exact ((h.tracks.perm hperm).passes (hmoves.passes hproper.known)).perm (hset c').symm
  case failures =>
    have hold := h.failures.trans (hperm.filterMap _)
    rw [List.filterMap_cons, hnone] at hold
    refine (hold.append_right _).trans (List.perm_append_comm.trans ?_)
    refine List.Perm.trans ?_ ((hset c').filterMap _).symm
    rw [hfailures, List.filterMap_cons]
    cases c'.failure quoted <;> exact .refl _

theorem Sound.congr (h : s.Sound quoted) (hchannels : t.channels = s.channels)
    (hconnections : t.connections = s.connections) (hfailures : t.failures = s.failures)
    (htracks : Tracks t.inner t.connections) : t.Sound quoted where
  proper c hc := by
    rw [hchannels]
    exact h.proper c (hconnections ▸ hc)
  tracks := htracks
  failures := by
    rw [hfailures, hconnections]
    exact h.failures

theorem Sound.step {l : EndpointLabel} (h : s.Sound quoted) (hstep : s.step quoted l = some t) :
    t.Sound quoted := by
  cases l with
  | accept =>
    obtain ⟨-, hstep⟩ := Option.ite_none_left_eq_some.1 hstep
    cases hstep
    have hfresh (d : DisplayId) : ¬Connection.Holds {} d := Connection.not_holds rfl
    constructor
    case proper =>
      intro c hc
      obtain hc | hc := List.mem_append.1 hc
      · exact h.proper c hc
      · rw [List.mem_singleton.1 hc]
        exact .of_quiet rfl (.inl rfl) rfl rfl
    case tracks =>
      refine Tracks.perm ?_ (List.perm_append_singleton _ _).symm
      constructor
      case le_next =>
        intro c hc d hd
        obtain rfl | hc := List.mem_cons.1 hc
        · cases hd
        · exact h.tracks.le_next c hc d hd
      case nodup => exact h.tracks.nodup
      case registered =>
        intro d
        rw [h.tracks.registered d, List.exists_mem_cons_iff, or_iff_right (hfresh d)]
    case failures =>
      rw [List.filterMap_append]
      simpa [Connection.failure] using h.failures
  | shutdown =>
    cases hstep
    exact h.congr rfl rfl rfl h.tracks
  | router c daemon =>
    obtain ⟨hkeeps, hstep⟩ := Option.ite_none_right_eq_some.1 hstep
    cases hstep
    have hnext := (RouterCall.frame { daemon with inner := s.inner } c).nextDisplayId
    have hkeys := containsKey_innerAfter { daemon with inner := s.inner } (c := c)
      (by rintro _ _ rfl; cases hkeeps) (by rintro _ rfl; cases hkeeps)
    refine h.congr rfl rfl rfl ⟨fun x hx d hd => ?_, h.tracks.nodup, fun d => ?_⟩
    · refine (h.tracks.le_next x hx d hd).trans (hnext ▸ ?_)
      cases c <;> first | exact le_rfl | cases hkeeps
    · rw [hkeys]
      exact h.tracks.registered d
  | send d e =>
    obtain ⟨-, hstep⟩ := Option.ite_none_right_eq_some.1 hstep
    cases hstep
    exact ⟨fun c hc => (h.proper c hc).send d e, h.tracks, h.failures⟩
  | setSnapshot r snap =>
    cases hstep
    exact h.congr rfl rfl rfl h.tracks
  | setEventsSubscribed r events =>
    cases hstep
    exact h.congr rfl rfl rfl h.tracks
  | connection i a =>
    obtain ⟨c, hc, hadvance⟩ := Option.bind_eq_some_iff.1 hstep
    exact h.advance hc hadvance

theorem sound_init : Sound quoted {} where
  proper c hc := absurd hc List.not_mem_nil
  tracks :=
    { le_next := fun c hc => absurd hc List.not_mem_nil
      nodup := List.nodup_nil
      registered := fun d => by simp [Inner.new] }
  failures := .nil

theorem version_of_spoken {h : Hello} (hspoken : c.Spoken quoted s.channels)
    (hhello : c.hello = some h) (hname : h.protocol = protocolName h.clientProtocolVersion)
    (hgreeted : greeting ∈ c.wire) : h.clientProtocolVersion = protocolVersion := by
  obtain hwire | ⟨_, _, -, -, hwire⟩ | ⟨⟨h', hhello', hr⟩, -⟩ := hspoken
  · rw [hwire] at hgreeted
    exact absurd hgreeted List.not_mem_nil
  · rw [hwire, List.mem_singleton] at hgreeted
    cases hgreeted
  · obtain rfl := Option.some_inj.1 (hhello.symm.trans hhello')
    exact h.refusal_eq_none quoted hr hname

/-- A client of the version before, one that is served, and one that hangs up before it is told
which display it was given. -/
def threeClients : List EndpointLabel :=
  let hello (name : String) (version : ℕ) : ConnectionAct :=
    .receive (.hello ⟨protocolName version, name, "1.0", version⟩)
  let register (name : String) : ConnectionAct :=
    .receive (.registerDisplay ⟨name, "", 1920, 1080, 60000, ⟨226, 128⟩⟩)
  let config : ProjectedConfig :=
    { configGeneration := 1
      source := ⟨0, 0, 1920, 1080⟩
      dest := ⟨0, 0, 1920, 1080⟩
      transform := 0
      clearRgba := .black }
  let single : BindSnapshot :=
    { generation := 1
      flags := 0
      count := 1
      fourcc := 0
      width := 1920
      height := 1080
      modifier := 0
      planesPerBuffer := 1
      stride := [7680]
      planeOffset := [0]
      size := [8294400]
      fds := 1 }
  [.accept, .accept, .accept,
    .connection 0 (hello "old" 6), .connection 0 .tick,
    .connection 1 (hello "desktop" 7), .connection 1 .tick, .connection 1 (register "DP-1"),
    .connection 1 .tick, .connection 1 .tick,
    .setEventsSubscribed 9 (some ["pointer"]), .setSnapshot 9 (some single),
    .send 1 (.bind 9), .connection 1 .tick, .send 1 (.setConfig config), .connection 1 .tick,
    .connection 1 (.receive (.pointer ⟨10, 20, .motion, 5, 0⟩)),
    .connection 2 (hello "panel" 7), .connection 2 .tick, .connection 2 (register "DP-2"),
    .connection 2 .tick, .connection 2 .fail]

def quote (s : String) : String := "\"" ++ s ++ "\""

end Endpoint

end Waywallen
