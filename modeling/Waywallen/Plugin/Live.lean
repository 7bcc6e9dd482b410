import Waywallen.Daemon.State
import Waywallen.Plugin.Reconcile

/-!
# The settings of live renderers

A renderer gets the settings of its plugin when it is spawned, and the changed ones with every
settings request from then on. A request takes a snapshot of the tables before it replaces them,
and sends what differs to the renderers that are listed by then; a spawn reads the tables long
before its renderer is listed.
-/

namespace Waywallen

open TaskPool

variable {fl : FloatOps}

def renderNodeKey : String := "render_node"

/-- The settings as `Init` carries them: a selected GPU is sent as its render node. -/
def initSettings (gpus : ℕ × ℕ → Option String) (settings : HashMap String String) :
    HashMap String String :=
  match settings.lookup gpuDrmDevKey with
  | none => settings
  | some raw =>
    match (parseDrmDev raw).bind gpus with
    | some path => (settings.erase gpuDrmDevKey).insert renderNodeKey path
    | none => settings.erase gpuDrmDevKey

namespace RendererRegistry

variable (r : RendererRegistry fl)

def resolve (wpType : String) : Option (RendererDef fl) :=
  (r.byType.lookup wpType).bind List.head?

def resolveByName (name : String) : Option (RendererDef fl) :=
  r.byType.values.flatten.find? (·.name = name)

/-- The renderer that a spawn request is for. -/
def resolveRequest (req : SpawnRequest) : Option (RendererDef fl) :=
  req.rendererName.elim (r.resolve req.wpType) r.resolveByName

end RendererRegistry

/-- A renderer on the list, with the value it last received for each setting. -/
structure LiveRenderer where
  wpType : String
  extras : HashMap String String
  name : String
  received : HashMap String String

structure SettingsState where
  plugins : PluginTables
  renderers : HashMap RendererId LiveRenderer
  /-- The ids of all renderers that have been listed. -/
  used : List RendererId

abbrev SettingsKv := List (String × String)

inductive SettingsCall
  | settingsSet (new : PluginTables)
  | snapshotPlugins (new : PluginTables)
  | update (new previous : PluginTables)
  /-- The renderers are listed. -/
  | pushPlugin (name : String) (kv : SettingsKv)
  | pushTo (id : RendererId) (name : String) (kv : SettingsKv)
  | write (id : RendererId) (name : String) (kv : SettingsKv)
  /-- An apply reads the tables. -/
  | apply (req : SpawnRequest)
  | findReusable (req : SpawnRequest) (settings : HashMap String String)
  | spawn (req : SpawnRequest) (settings : HashMap String String)
  | insertRenderer (h : LiveRenderer)
  | kill (id : RendererId)

inductive SettingsChoice
  | tick
  | fail
  /-- The UUID of the spawn. -/
  | uuid (id : RendererId)

inductive SettingsRequest
  | settingsSet (new : PluginTables)
  | apply (req : SpawnRequest)
  /-- The low-level request: its metadata are the settings. -/
  | rendererSpawn (wpType : String) (metadata : HashMap String String) (fps : ℕ)
  | rendererKill (id : RendererId)

abbrev SettingsStep := Outcome SettingsState SettingsCall

/-- The plugins whose tables differ, as two hash maps compare. -/
def changedPlugins (previous new : PluginTables) : List String :=
  (new.entries.filter fun e => !(previous.lookup e.1).any e.2.sameEntries).map Sigma.fst ++
    previous.keys.filter fun name => !new.containsKey name

/-- What a request sends to the renderers of a plugin: the declared keys with another value than
before. -/
def pushedSettings (d : RendererDef fl) (previous new : PluginTables) : SettingsKv :=
  ((new.spawnSettings d.name).entries.filter fun e => d.settings.containsKey e.1 &&
    (previous.spawnSettings d.name).lookup e.1 != some e.2).map fun e => (e.1, e.2)

def pushes (r : RendererRegistry fl) (previous new : PluginTables) : List SettingsCall :=
  (changedPlugins previous new).filterMap fun name =>
    (r.allRenderers.find? (·.name = name)).bind fun d =>
      if pushedSettings d previous new = [] then none
      else some (.pushPlugin name (pushedSettings d previous new))

namespace SettingsState

variable (s : SettingsState)

def done : Option SettingsStep := some { shared := s }

def andThen (cs : List SettingsCall) : Option SettingsStep := some { shared := s, next := cs }

def findReusable (r : RendererRegistry fl) (req : SpawnRequest) : Option RendererId :=
  (r.resolveRequest req).bind fun d =>
    (s.renderers.entries.find? fun e => e.2.wpType == req.wpType && e.2.name == d.name &&
      e.2.extras.sameEntries req.extras).map Sigma.fst

/-- The renderer takes the values over. -/
def deliver (id : RendererId) (kv : SettingsKv) : SettingsState :=
  { s with renderers := s.renderers.modify id fun h =>
    { h with received := kv.foldl (fun m e => m.insert e.1 e.2) h.received } }

end SettingsState

section

variable (r : RendererRegistry fl) (gpus : ℕ × ℕ → Option String)

def SettingsCall.exec (x : SettingsChoice) (s : SettingsState) : SettingsCall → Option SettingsStep
  | .settingsSet new =>
      match validatePlugins r new with
      | .error _ => s.done
      | .ok checked => s.andThen [.snapshotPlugins checked]
  | .snapshotPlugins new => s.andThen [.update new s.plugins]
  | .update new previous =>
      ({ s with plugins := new } : SettingsState).andThen (pushes r previous new)
  | .pushPlugin name kv => s.andThen (s.renderers.keys.map fun id => .pushTo id name kv)
  | .pushTo id name kv =>
      s.andThen (if (s.renderers.lookup id).any (·.name = name) then [.write id name kv] else [])
  | .write id _ kv =>
      match x with
      | .tick => (s.deliver id kv).done
      | .fail => s.done
      | .uuid _ => none
  | .apply req =>
      match r.resolveRequest req with
      | none => s.done
      | some d => s.andThen [.findReusable req (s.plugins.spawnSettings d.name)]
  | .findReusable req settings =>
      s.andThen (if (s.findReusable r req).isSome then [] else [.spawn req settings])
  | .spawn req settings =>
      match x, r.resolveRequest req with
      | .tick, some d => s.andThen
          [.insertRenderer ⟨req.wpType, req.extras, d.name, initSettings gpus settings⟩]
      | _, _ => s.done
  -- the id was drawn when the spawn began; nobody has seen it before
  | .insertRenderer h =>
      match x with
      | .uuid id =>
          if id ∈ s.used then none
          else ({ s with
            renderers := s.renderers.insert id h
            used := id :: s.used } : SettingsState).done
      | _ => none
  | .kill id => ({ s with renderers := s.renderers.erase id } : SettingsState).done

def settingsSemantics :
    Semantics SettingsState SettingsCall SettingsChoice SettingsRequest Empty where
  exec x _ c s := c.exec r gpus x s
  accept q s := some (s, { stack := match q with
    | .settingsSet new => [.settingsSet new]
    | .apply req => [.apply req]
    | .rendererSpawn wpType metadata fps =>
        [.spawn ⟨if wpType = "" then "scene" else wpType, metadata, none⟩
          (if fps = 0 then metadata else metadata.insert "fps" (toString fps))]
    | .rendererKill id => [.kill id] })
  act e _ := nomatch e

end

abbrev SettingsPool := Pool SettingsState SettingsCall

abbrev SettingsLabel := Label SettingsChoice SettingsRequest Empty

/-- The daemon serves requests; nothing has been spawned. -/
def startSettings (plugins : PluginTables) : SettingsPool :=
  ⟨⟨plugins, ∅, []⟩, []⟩

end Waywallen
