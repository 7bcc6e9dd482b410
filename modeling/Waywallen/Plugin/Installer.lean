import Mathlib.Data.List.Sort
import Mathlib.Data.String.Basic
import Waywallen.Library.FileTree

/-!
# Installing a plugin

`install_zip` writes the entries of an archive below the user plugin directory as it reads them, and
looks for a manifest afterwards. The files are a tree without links; the archive has been read by
the zip library.
-/

namespace Waywallen

open FileTree PathComponent

/-- What `enclosed_name` accepts: a path that does not lead above its start. -/
structure EnclosedPath where
  components : List PathComponent
  enclosed : (depth 0 components).isSome = true

structure ZipEntry where
  name : String
  enclosedName : Option EnclosedPath
  isDir : Bool
  data : List UInt8

/-- The archive with its entries, or what keeps it from being read. -/
inductive ZipFile
  | unopened (e : String)
  | unreadable (e : String)
  | archive (entries : List ZipEntry)

def ZipFile.entries : ZipFile → List ZipEntry
  | archive entries => entries
  | _ => []

/-- What the daemon finds around it. -/
structure InstallWorld where
  userPluginsDir : List String
  /-- What the operating system says of a path that it refuses. -/
  refusal : List String → String
  /-- What the zip library says of an entry that it cannot read. -/
  damaged : String → String
  readToString : List UInt8 → Except String String
  /-- The id in the text of a manifest. -/
  tomlId : String → Except String String

/-- How far an entry gets. -/
inductive EntryChoice
  | whole
  | damaged
  /-- Not all directories can be made. -/
  | createDirAll (made : ℕ)
  | create
  | copy (written : ℕ)
  deriving DecidableEq

/-- What fails during an installation; `stat` and `read` are for the manifests. -/
structure InstallChoice where
  createDirAll : Option ℕ
  entry : ℕ → EntryChoice
  stat : String → Bool
  read : String → Bool

namespace InstallWorld

variable (w : InstallWorld)

abbrev Files := FileTree (List UInt8)

def makeDirs (made : Option ℕ) (path : List PathComponent) (t : Files) :
    Files × Except String Unit :=
  match made with
  | some made => ((createDirAll t [] (path.take made)).1, .error (w.refusal (walk [] path)))
  | none =>
    match createDirAll t [] path with
    | (t, none) => (t, .ok ())
    | (t, some inTheWay) => (t, .error (w.refusal inTheWay))

/-- `dest_root` with a path below it. -/
def join (rel : List PathComponent) : List PathComponent :=
  w.userPluginsDir.map normal ++ rel

def EntryChoice.made : EntryChoice → Option ℕ
  | .createDirAll made => some made
  | _ => none

def createFile (x : EntryChoice) (path : List String) (data : List UInt8) (t : Files) :
    Files × Except String Unit :=
  if x = .create ∨ t path = some .dir then (t, .error (w.refusal path))
  else
    match x with
    | .copy written => (t.set path (.file (data.take written)), .error (w.refusal path))
    | _ => (t.set path (.file data), .ok ())

def extract (x : EntryChoice) (entry : ZipEntry) (t : Files) : Files × Except String Unit :=
  if x = .damaged then (t, .error (w.damaged entry.name))
  else
    match entry.enclosedName with
    | none => (t, .error s!"unsafe path in archive: {entry.name}")
    | some rel =>
      let out := w.join rel.components
      if entry.isDir then w.makeDirs (EntryChoice.made x) out t
      else
        match w.makeDirs (EntryChoice.made x) out.dropLast t with
        | (t, .error e) => (t, .error e)
        | (t, .ok ()) => w.createFile x (walk [] out) entry.data t

def extractAll (x : ℕ → EntryChoice) : ℕ → List ZipEntry → Files → Files × Except String Unit
  | _, [], t => (t, .ok ())
  | i, entry :: entries, t =>
    match w.extract (x i) entry t with
    | (t, .error e) => (t, .error e)
    | (t, .ok ()) => extractAll x (i + 1) entries t

end InstallWorld

/-- The first component of an entry, when it is a name. -/
def ZipEntry.topDir (entry : ZipEntry) : Option String :=
  entry.enclosedName.bind fun rel =>
    match rel.components.head? with
    | some (.normal first) => some first
    | _ => none

/-- The names at the top of the archive in order, each once. -/
def topDirs (entries : List ZipEntry) : List String :=
  (entries.filterMap ZipEntry.topDir).dedup.insertionSort (· ≤ ·)

namespace InstallWorld

variable (w : InstallWorld)

def manifest (d : String) : List String :=
  w.userPluginsDir ++ [d, "plugin.toml"]

def readPluginId (x : InstallChoice) (d : String) (t : Files) : Except String String :=
  if x.read d then .error (w.refusal (w.manifest d))
  else
    match t.fileAt (w.manifest d) with
    | none => .error (w.refusal (w.manifest d))
    | some bytes =>
      match w.readToString bytes with
      | .error e => .error e
      | .ok text =>
        match w.tomlId text with
        | .error e => .error s!"parse plugin.toml: {e}"
        | .ok id => .ok id

def isManifest (x : InstallChoice) (t : Files) (d : String) : Bool :=
  (t.fileAt (w.manifest d)).isSome && !x.stat d

def installedId (x : InstallChoice) (entries : List ZipEntry) (t : Files) : Except String String :=
  match (topDirs entries).find? (w.isManifest x t) with
  | some d => w.readPluginId x d t
  | none => .error "archive must contain a top-level directory with plugin.toml"

def display (path : List String) : String :=
  "/" ++ "/".intercalate path

def installZip (zipPath : String) (zip : ZipFile) (x : InstallChoice) (t : Files) :
    Files × Except String String :=
  match zip with
  | .unopened e => (t, .error s!"open {zipPath}: {e}")
  | .unreadable e => (t, .error s!"read zip: {e}")
  | .archive entries =>
    match w.makeDirs x.createDirAll (w.join []) t with
    | (t, .error e) => (t, .error s!"mkdir {display w.userPluginsDir}: {e}")
    | (t, .ok ()) =>
      match w.extractAll x.entry 0 entries t with
      | (t, .error e) => (t, .error e)
      | (t, .ok ()) => (t, w.installedId x entries t)

/-! ## What an installation writes -/

/-- The path of the file that an entry stands for. -/
def target (entry : ZipEntry) : Option (List String) :=
  if entry.isDir then none
  else entry.enclosedName.map fun rel => walk [] (w.join rel.components)

def writes (entries : List ZipEntry) : List (List String × List UInt8) :=
  entries.filterMap fun entry => (w.target entry).map fun path => (path, entry.data)

/-- The first entries of a list, the last of them with a part of its data at least. -/
inductive Begun : List ZipEntry → List ZipEntry → Prop
  | none (entries : List ZipEntry) : Begun [] entries
  | part (entry : ZipEntry) (n : ℕ) (entries : List ZipEntry) :
    Begun [{ entry with data := entry.data.take n }] (entry :: entries)
  | cons (entry : ZipEntry) {es entries : List ZipEntry} :
    Begun es entries → Begun (entry :: es) (entry :: entries)

/-- All entries are written, or some of them when it fails. -/
def Performs {α : Type} (entries : List ZipEntry) (t : Files) (r : Files × Except String α) :
    Prop :=
  match r.2 with
  | .ok _ => Wrote (w.writes entries) t r.1
  | .error _ => ∃ es, Begun es entries ∧ Wrote (w.writes es) t r.1

/-- At the user plugin directory, below it or on the way to it. -/
def Near (path : List String) : Prop :=
  w.userPluginsDir <+: path ∨ path <+: w.userPluginsDir

/-- The first of the top-level names with a manifest has one with this id. -/
structure Declares (x : InstallChoice) (entries : List ZipEntry) (t : Files) (id : String) :
    Prop where
  first : ∃ d ∈ topDirs entries, (∃ bytes text, t.fileAt (w.manifest d) = some bytes ∧
      w.readToString bytes = .ok text ∧ w.tomlId text = .ok id) ∧
    ∀ d' ∈ topDirs entries, d' < d → w.isManifest x t d' = false

section

variable {w : InstallWorld} {t t' : Files} {x : EntryChoice} {entry : ZipEntry}
  {entries : List ZipEntry} {made : Option ℕ} {path : List PathComponent} {e : String}

theorem wrote_makeDirs : Wrote [] t (w.makeDirs made path t).1 := by
  cases made with
  | some made => exact wrote_createDirAll t [] _
  | none =>
    have h := wrote_createDirAll t [] path
    rw [makeDirs]
    split
    · rename_i heq
      rwa [heq] at h
    · rename_i heq
      rwa [heq] at h

theorem makeDirs_of_ne {p : List String} (h : ∀ k, walk [] (path.take k) ≠ p) :
    (w.makeDirs made path t).1 p = t p := by
  cases made with
  | some made =>
    refine createDirAll_of_ne fun k => ?_
    rw [List.take_take]
    exact h _
  | none =>
    have hkeep : (createDirAll t [] path).1 p = t p := createDirAll_of_ne h
    rw [makeDirs]
    split
    · rename_i heq
      rwa [heq] at hkeep
    · rename_i heq
      rwa [heq] at hkeep

theorem begun_self (entries : List ZipEntry) : Begun entries entries := by
  induction entries with
  | nil => exact .none []
  | cons entry entries ih => exact .cons entry ih

theorem performs_error (entries : List ZipEntry) {α : Type} (h : Wrote [] t t') :
    w.Performs entries t (t', (.error e : Except String α)) :=
  ⟨[], .none entries, h⟩

theorem performs_createFile {rel : EnclosedPath} (hfile : entry.isDir = false)
    (hname : entry.enclosedName = some rel) (h : Wrote [] t t') :
    w.Performs [entry] t
      (w.createFile x (walk [] (w.join rel.components)) entry.data t') := by
  have hwrites (data : List UInt8) : w.writes [{ entry with data }] =
      [(walk [] (w.join rel.components), data)] := by
    simp [writes, target, hfile, hname]
  unfold createFile
  split
  · exact performs_error _ h
  · rename_i hcreate
    rw [not_or] at hcreate
    split
    · rename_i written
      refine ⟨[{ entry with data := entry.data.take written }], .part entry written [], ?_⟩
      rw [hwrites]
      exact h.trans (wrote_set_file hcreate.2)
    · unfold Performs
      rw [hwrites entry.data]
      exact h.trans (wrote_set_file hcreate.2)

theorem performs_extract (x : EntryChoice) (entry : ZipEntry) (t : Files) :
    w.Performs [entry] t (w.extract x entry t) := by
  unfold extract
  split
  · exact performs_error _ (Wrote.refl t)
  · split
    · exact performs_error _ (Wrote.refl t)
    · rename_i rel hname
      dsimp only
      split
      · rename_i hdir
        have hwrites : w.writes [entry] = [] := by simp [writes, target, hdir]
        unfold Performs
        split
        · rw [hwrites]
          exact wrote_makeDirs
        · exact ⟨[], .none _, wrote_makeDirs⟩
      · rename_i hfile
        have hdirs : Wrote [] t (w.makeDirs (EntryChoice.made x)
          (w.join rel.components).dropLast t).1 := wrote_makeDirs
        split
        · rename_i heq
          rw [heq] at hdirs
          exact performs_error _ hdirs
        · rename_i heq
          rw [heq] at hdirs
          exact performs_createFile (Bool.not_eq_true _ ▸ hfile) hname hdirs

theorem writes_cons (entry : ZipEntry) (entries : List ZipEntry) :
    w.writes (entry :: entries) = w.writes [entry] ++ w.writes entries := by
  rw [writes, writes, writes, ← List.filterMap_append]
  rfl

/-- What one entry does, entry by entry. -/
theorem performs_extractAll (x : ℕ → EntryChoice) (i : ℕ) (entries : List ZipEntry) (t : Files) :
    w.Performs entries t (w.extractAll x i entries t) := by
  induction entries generalizing i t with
  | nil => exact Wrote.refl t
  | cons entry entries ih =>
    have hentry := performs_extract (w := w) (x i) entry t
    rw [extractAll]
    split
    · rename_i heq
      rw [heq] at hentry
      obtain ⟨es, hes, hwrote⟩ := hentry
      refine ⟨es, ?_, hwrote⟩
      cases hes with
      | none => exact .none _
      | part entry n => exact .part entry n entries
      | cons entry hes =>
        cases hes
        exact .cons entry (.none entries)
    · rename_i t' heq
      rw [heq] at hentry
      have hrest := ih (i + 1) t'
      unfold Performs at hrest ⊢
      split
      · rename_i hok
        rw [hok] at hrest
        rw [writes_cons]
        exact Wrote.trans hentry hrest
      · rename_i herror
        rw [herror] at hrest
        obtain ⟨es, hes, hwrote⟩ := hrest
        refine ⟨entry :: es, .cons entry hes, ?_⟩
        rw [writes_cons]
        exact Wrote.trans hentry hwrote

/-! ## Where it writes -/

/-- A path of the archive below the user plugin directory stays near it all the way. -/
theorem near_walk (rel : EnclosedPath) (k : ℕ) :
    w.Near (walk [] ((w.join rel.components).take k)) := by
  rw [join, List.take_append, walk_append, ← List.map_take, walk_normal, List.nil_append,
    List.length_map]
  by_cases hk : k ≤ w.userPluginsDir.length
  · rw [Nat.sub_eq_zero_of_le hk, List.take_zero]
    exact .inr (List.take_prefix _ _)
  · obtain ⟨below, hbelow⟩ : ∃ below, walk (w.userPluginsDir ++ [])
        (rel.components.take (k - w.userPluginsDir.length)) = w.userPluginsDir ++ below :=
      walk_of_depth (depth_take rel.enclosed)
    rw [List.append_nil] at hbelow
    rw [List.take_of_length_le (Nat.le_of_not_le hk), hbelow]
    exact .inl (List.prefix_append _ _)

theorem extract_of_not_near {p : List String} (hp : ¬ w.Near p) :
    (w.extract x entry t).1 p = t p := by
  unfold extract
  split
  · rfl
  · split
    · rfl
    · rename_i rel hname
      have hne (k : ℕ) : walk [] ((w.join rel.components).take k) ≠ p := by
        rintro rfl
        exact hp (near_walk rel k)
      dsimp only
      split
      · exact makeDirs_of_ne hne
      · have hdirs : (w.makeDirs (EntryChoice.made x) (w.join rel.components).dropLast t).1 p =
            t p := by
          refine makeDirs_of_ne fun k => ?_
          rw [List.dropLast_eq_take, List.take_take]
          exact hne _
        have hout : p ≠ walk [] (w.join rel.components) := by
          rintro rfl
          exact hne _ (by rw [List.take_length])
        split
        · rename_i heq
          rwa [heq] at hdirs
        · rename_i heq
          rw [heq] at hdirs
          unfold createFile
          split
          · exact hdirs
          · split <;> exact (Function.update_of_ne hout _ _).trans hdirs

theorem extractAll_of_not_near {p : List String} (hp : ¬ w.Near p) (x : ℕ → EntryChoice) (i : ℕ) :
    (w.extractAll x i entries t).1 p = t p := by
  induction entries generalizing i t with
  | nil => rfl
  | cons entry entries ih =>
    have hentry : (w.extract (x i) entry t).1 p = t p := extract_of_not_near hp
    rw [extractAll]
    split
    · rename_i heq
      rwa [heq] at hentry
    · rename_i heq
      rw [heq] at hentry
      exact (ih (i + 1)).trans hentry

end

theorem declares_of_installedId {x : InstallChoice} {entries : List ZipEntry} {t : Files}
    {id : String} (h : w.installedId x entries t = .ok id) : w.Declares x entries t id := by
  have hsorted : (topDirs entries).Pairwise (· ≤ ·) := List.pairwise_insertionSort _ _
  unfold installedId at h
  split at h
  · rename_i d hfind
    obtain ⟨hmanifest, before, after, hdirs, hbefore⟩ := List.find?_eq_some_iff_append.1 hfind
    refine ⟨d, hdirs ▸ List.mem_append_right _ List.mem_cons_self, ?_, fun d' hd' hlt => ?_⟩
    · unfold readPluginId at h
      split at h
      · cases h
      · split at h
        · cases h
        · rename_i bytes hbytes
          split at h
          · cases h
          · rename_i text htext
            split at h
            · cases h
            · rename_i id' hid
              cases h
              exact ⟨bytes, text, hbytes, htext, hid⟩
    · rw [hdirs] at hd' hsorted
      rcases List.mem_append.1 hd' with hd' | hd'
      · simpa using hbefore d' hd'
      · rcases List.mem_cons.1 hd' with rfl | hd'
        · exact absurd hlt (lt_irrefl _)
        · have hle := (List.pairwise_cons.1 (List.pairwise_append.1 hsorted).2.1).1 d' hd'
          exact absurd hlt (not_lt.2 hle)
  · cases h

/-- Whatever fails, an installation writes files of the archive only, in order, and nothing away
from the user plugin directory; when it succeeds it has written all of them. -/
theorem installZip_writes (zipPath : String) (zip : ZipFile) (x : InstallChoice) (t : Files) :
    (∀ id, (w.installZip zipPath zip x t).2 = .ok id →
      Wrote (w.writes zip.entries) t (w.installZip zipPath zip x t).1 ∧
        w.Declares x zip.entries (w.installZip zipPath zip x t).1 id) ∧
    (∀ e, (w.installZip zipPath zip x t).2 = .error e → ∃ es, Begun es zip.entries ∧
      Wrote (w.writes es) t (w.installZip zipPath zip x t).1) ∧
    ∀ p, ¬ w.Near p → (w.installZip zipPath zip x t).1 p = t p := by
  cases zip with
  | unopened e => exact ⟨nofun, fun _ _ => ⟨[], .none _, Wrote.refl t⟩, fun _ _ => rfl⟩
  | unreadable e => exact ⟨nofun, fun _ _ => ⟨[], .none _, Wrote.refl t⟩, fun _ _ => rfl⟩
  | archive entries =>
    have hroot : Wrote [] t (w.makeDirs x.createDirAll (w.join []) t).1 := wrote_makeDirs
    have hnear (p : List String) (hp : ¬ w.Near p) :
        (w.makeDirs x.createDirAll (w.join []) t).1 p = t p := by
      refine makeDirs_of_ne fun k => ?_
      rintro rfl
      exact hp (near_walk ⟨[], rfl⟩ k)
    unfold installZip
    dsimp only [ZipFile.entries]
    split
    · rename_i heq
      rw [heq] at hroot hnear
      exact ⟨nofun, fun _ _ => ⟨[], .none _, hroot⟩, hnear⟩
    · rename_i t₁ heq
      rw [heq] at hroot hnear
      have hall := performs_extractAll (w := w) x.entry 0 entries t₁
      have haway (p : List String) (hp : ¬ w.Near p) :
          (w.extractAll x.entry 0 entries t₁).1 p = t p :=
        (extractAll_of_not_near hp x.entry 0).trans (hnear p hp)
      split
      · rename_i heq
        rw [heq] at hall haway
        obtain ⟨es, hes, hwrote⟩ := hall
        exact ⟨nofun, fun _ _ => ⟨es, hes, hroot.trans hwrote⟩, haway⟩
      · rename_i t₂ heq
        rw [heq] at hall haway
        have hwrote : Wrote (w.writes entries) t t₂ := hroot.trans hall
        exact ⟨fun id hid => ⟨hwrote, declares_of_installedId w hid⟩,
          fun _ _ => ⟨entries, begun_self entries, hwrote⟩, haway⟩

/-- Nothing has happened when it fails. -/
def Unchanged (t : Files) (r : Files × Except String String) : Prop :=
  ∀ e, r.2 = .error e → r.1 = t

/-- When it succeeds, all has happened in the directory that has the manifest. -/
def Confined (zip : ZipFile) (t : Files) (r : Files × Except String String) : Prop :=
  ∀ id, r.2 = .ok id → Wrote (w.writes zip.entries) t r.1 ∧
    ∃ d, (∃ bytes text, r.1.fileAt (w.manifest d) = some bytes ∧
        w.readToString bytes = .ok text ∧ w.tomlId text = .ok id) ∧
      ∀ file ∈ w.writes zip.entries, w.userPluginsDir ++ [d] <+: file.1

def plainWorld : InstallWorld where
  userPluginsDir := ["plugins"]
  refusal _ := "Permission denied (os error 13)"
  damaged _ := "Invalid checksum"
  readToString _ := .ok "[plugin]\nid = \"a\""
  tomlId _ := .ok "a"

/-- A file at the top of the archive and no directory. -/
def looseFile : ZipFile :=
  .archive [⟨"readme", some ⟨[.normal "readme"], rfl⟩, false, [1]⟩]

/-- Two directories, the first of which has a manifest. -/
def twoPlugins : ZipFile :=
  .archive [⟨"a/plugin.toml", some ⟨[.normal "a", .normal "plugin.toml"], rfl⟩, false, [1]⟩,
    ⟨"b/main.lua", some ⟨[.normal "b", .normal "main.lua"], rfl⟩, false, [2]⟩]

def noPlugins : Files := fun path =>
  if path = [] ∨ path = ["plugins"] then some .dir else none

def allGoesWell : InstallChoice := ⟨none, fun _ => .whole, fun _ => false, fun _ => false⟩

theorem not_atomic :
    (¬ ∀ (w : InstallWorld) (zipPath : String) (zip : ZipFile) (x : InstallChoice) (t : Files),
      Unchanged t (w.installZip zipPath zip x t)) ∧
    ¬ ∀ (w : InstallWorld) (zipPath : String) (zip : ZipFile) (x : InstallChoice) (t : Files),
      w.Confined zip t (w.installZip zipPath zip x t) := by
  refine ⟨fun h => ?_, fun h => ?_⟩
  · have herror : (plainWorld.installZip "a.zip" looseFile allGoesWell noPlugins).2 =
        .error "archive must contain a top-level directory with plugin.toml" := by decide
    have hfile : (plainWorld.installZip "a.zip" looseFile allGoesWell noPlugins).1
        ["plugins", "readme"] = some (.file [1]) := by decide
    rw [h plainWorld "a.zip" looseFile allGoesWell noPlugins _ herror] at hfile
    cases hfile
  · have hok : (plainWorld.installZip "a.zip" twoPlugins allGoesWell noPlugins).2 = .ok "a" := by
      decide
    obtain ⟨-, d, -, hwrites⟩ := h plainWorld "a.zip" twoPlugins allGoesWell noPlugins _ hok
    have ha : d = "a" := by
      simpa [plainWorld] using hwrites (["plugins", "a", "plugin.toml"], [1]) (by decide)
    have hb : d = "b" := by
      simpa [plainWorld] using hwrites (["plugins", "b", "main.lua"], [2]) (by decide)
    exact absurd (ha.symm.trans hb) (by decide)

end InstallWorld

end Waywallen
