import Waywallen.Library.UnixPath
import Waywallen.Store.Repo

/-!
# Names of remote files

A remote wallpaper is stored below the data directory, in a directory named after its source, under
the file name its plugin gives. Both names are sanitised: what is left is one component of a path,
but two names may be left alike, and the directory of a source may be `..`.
-/

namespace Waywallen

open UnixPath

abbrev PathBuf := List Char

/-- Letters, digits, dots, underscores and hyphens stay. -/
def sanitizeChar (c : Char) : Char :=
  if c.isAlphanum || c = '.' || c = '_' || c = '-' then c else '_'

def sanitizePathSegment (input : List Char) : PathBuf :=
  let s := input.map sanitizeChar
  if s = [] then "default".toList else s

/-- The directory of all remote sources below the data directory `base`. -/
def remoteRoot (base : PathBuf) : PathBuf := joinPath base "remote".toList

def remoteContentDir (base : PathBuf) (sourceId : String) : PathBuf :=
  joinPath (remoteRoot base) (sanitizePathSegment sourceId.toList)

/-- The sanitised file name of the plugin or, when that is none, one made from the id. -/
def safeRemoteFilename (filename id : String) : PathBuf :=
  match (fileName filename.toList).filter fun v => trim (String.ofList v) ≠ "" with
  | some v => sanitizePathSegment v
  | none => sanitizePathSegment id.toList ++ ".bin".toList

def sidecarPath (path : PathBuf) : PathBuf := path ++ ".json".toList

/-- The text of a random UUID. -/
structure Uuid where
  text : List Char
  noSep : '/' ∉ text

/-- The temporary file next to `path` that is renamed to it: `kind` and a UUID go behind the
extension, which is `other` if there is none. -/
def tempPath (path : PathBuf) (other kind : String) (uuid : Uuid) : PathBuf :=
  withExtension path
    (((fileName path).bind extension).getD other.toList ++ kind.toList ++ uuid.text)

def partPath (path : PathBuf) (uuid : Uuid) : PathBuf := tempPath path "download" ".part-" uuid

def sidecarTempPath (path : PathBuf) (uuid : Uuid) : PathBuf :=
  tempPath (sidecarPath path) "json" ".tmp-" uuid

example : safeRemoteFilename "a/b c.png" "7" = "b_c.png".toList ∧
    safeRemoteFilename "b:c.png" "8" = "b_c.png".toList := by decide

/-! ## Sanitised names -/

theorem sanitizeChar_eq_dot {c : Char} (h : sanitizeChar c = '.') : c = '.' := by
  unfold sanitizeChar at h
  split at h
  · exact h
  · cases h

theorem sanitizeChar_ne_slash (c : Char) : sanitizeChar c ≠ '/' := by
  unfold sanitizeChar
  split
  · rename_i h
    rintro rfl
    contradiction
  · decide

/-- A text of dots alone is sanitised from itself. -/
theorem eq_of_map_sanitizeChar {n : ℕ} {input : List Char}
    (h : input.map sanitizeChar = List.replicate n '.') : input = List.replicate n '.' := by
  have hlength : input.length = n := by simpa using congrArg List.length h
  refine List.eq_replicate_of_mem (fun c hc => ?_) |>.trans (by rw [hlength])
  have hmem := List.mem_map_of_mem (f := sanitizeChar) hc
  rw [h] at hmem
  exact sanitizeChar_eq_dot (List.eq_of_mem_replicate hmem)

theorem notMem_sanitizePathSegment (input : List Char) : '/' ∉ sanitizePathSegment input := by
  simp only [sanitizePathSegment]
  split
  · decide
  · intro h
    obtain ⟨c, -, hc⟩ := List.mem_map.1 h
    exact sanitizeChar_ne_slash c hc

theorem sanitizePathSegment_ne_nil (input : List Char) : sanitizePathSegment input ≠ [] := by
  simp only [sanitizePathSegment]
  split
  · decide
  · assumption

theorem eq_parentDir_of_sanitize {input : List Char}
    (h : sanitizePathSegment input = ['.', '.']) : input = ['.', '.'] := by
  simp only [sanitizePathSegment] at h
  split at h
  · cases h
  · exact eq_of_map_sanitizeChar (n := 2) h

theorem proper_sanitize {name : List Char} (hname : Proper name) :
    Proper (sanitizePathSegment name) where
  noSep := notMem_sanitizePathSegment name
  nonempty := sanitizePathSegment_ne_nil name
  ne_curDir h := by
    simp only [sanitizePathSegment] at h
    split at h
    · cases h
    · exact hname.ne_curDir (eq_of_map_sanitizeChar (n := 1) h)
  ne_parentDir h := hname.ne_parentDir (eq_parentDir_of_sanitize h)

theorem proper_append {name ending : List Char} (hname : '/' ∉ name) (hending : '/' ∉ ending)
    (hlength : 2 < ending.length) : Proper (name ++ ending) := by
  have hlong : 2 < (name ++ ending).length := by
    rw [List.length_append]
    omega
  refine ⟨by simp [hname, hending], ?_, ?_, ?_⟩
  all_goals
    intro h
    rw [h] at hlong
    contradiction

theorem proper_safeRemoteFilename (filename id : String) :
    Proper (safeRemoteFilename filename id) := by
  unfold safeRemoteFilename
  split
  · rename_i v hv
    exact proper_sanitize (proper_of_fileName (Option.filter_eq_some_iff.1 hv).1)
  · exact proper_append (notMem_sanitizePathSegment _) (by decide) (by decide)

/-! ## Paths below the directory of a source -/

theorem remoteRoot_ends (base : PathBuf) : ∃ front, remoteRoot base = front ++ "remote".toList :=
  joinPath_ends (by decide)

theorem remoteContentDir_eq (base : PathBuf) (sourceId : String) :
    remoteContentDir base sourceId =
      remoteRoot base ++ '/' :: sanitizePathSegment sourceId.toList := by
  obtain ⟨front, hfront⟩ := remoteRoot_ends base
  refine joinPath_name ?_ ?_ (notMem_sanitizePathSegment _)
  · rw [hfront]
    simp
  · rw [hfront]
    simp

theorem remoteContentDir_ne_nil (base : PathBuf) (sourceId : String) :
    remoteContentDir base sourceId ≠ [] := by
  simp [remoteContentDir_eq]

/-- A name joined to the directory of a source. -/
theorem joinPath_remoteContentDir (base : PathBuf) (sourceId : String) {name : PathBuf}
    (hname : '/' ∉ name) :
    joinPath (remoteContentDir base sourceId) name =
      remoteContentDir base sourceId ++ '/' :: name := by
  refine joinPath_name (remoteContentDir_ne_nil base sourceId) (fun h => ?_) hname
  obtain ⟨c, cs, hsegment⟩ :=
    List.exists_cons_of_ne_nil (sanitizePathSegment_ne_nil sourceId.toList)
  rw [remoteContentDir_eq, List.getLast?_append_cons, hsegment, List.getLast?_cons_cons,
    ← hsegment] at h
  exact notMem_sanitizePathSegment _ (List.mem_of_getLast? h)

/-- A file right below the directory of a source lies below the remote directory, unless that
directory is `..`. -/
theorem inside_remoteRoot (base : PathBuf) {sourceId : String} {name : PathBuf}
    (hsource : sourceId ≠ "..") (hname : Proper name) :
    Inside (remoteRoot base) (remoteContentDir base sourceId ++ '/' :: name) := by
  have habove : ∀ segment ∈ [sanitizePathSegment sourceId.toList],
      '/' ∉ segment ∧ segment ≠ ['.', '.'] := by
    intro segment hmem
    rw [List.mem_singleton.1 hmem]
    refine ⟨notMem_sanitizePathSegment _, fun h => hsource ?_⟩
    exact String.toList_injective (eq_parentDir_of_sanitize h)
  have hinside := inside_append (remoteRoot base) habove hname
  rwa [List.flatMap_singleton, ← remoteContentDir_eq] at hinside

theorem inside_remoteContentDir (base : PathBuf) (sourceId : String) {name : PathBuf}
    (hname : Proper name) :
    Inside (remoteContentDir base sourceId) (remoteContentDir base sourceId ++ '/' :: name) := by
  have hnone : ∀ segment ∈ ([] : List PathBuf), '/' ∉ segment ∧ segment ≠ ['.', '.'] := nofun
  have hinside := inside_append (remoteContentDir base sourceId) hnone hname
  rwa [List.flatMap_nil, List.append_nil] at hinside

/-! ## Temporary files -/

/-- A path right below a directory. -/
def Below (dir path : PathBuf) : Prop := ∃ name, Proper name ∧ path = dir ++ '/' :: name

theorem Below.sidecar {dir path : PathBuf} (h : Below dir path) : Below dir (sidecarPath path) := by
  obtain ⟨name, hname, rfl⟩ := h
  refine ⟨name ++ ".json".toList, proper_append hname.noSep (by decide) (by decide), ?_⟩
  rw [sidecarPath, List.append_assoc, List.cons_append]

theorem Below.temp {dir path : PathBuf} (hdir : dir ≠ []) (h : Below dir path)
    {other kind : String} (hother : '/' ∉ other.toList) (hkind : kind.toList ≠ [])
    (hsep : '/' ∉ kind.toList) (uuid : Uuid) : Below dir (tempPath path other kind uuid) := by
  obtain ⟨name, hname, rfl⟩ := h
  have hext : '/' ∉ (extension name).getD other.toList := by
    cases he : extension name with
    | none => exact hother
    | some ext => exact notMem_extension hname he
  rw [tempPath, fileName_append hdir hname, Option.bind_some, withExtension_append hdir hname]
  refine ⟨_, proper_withExtension hname ?_ ?_, rfl⟩
  · simp [hkind]
  · simp [hext, hsep, uuid.noSep]

end Waywallen
