import Mathlib.Data.List.Induction
import Mathlib.Logic.Function.Basic

/-!
# File trees

Directories and files by the names that lead to them from the root. A path is walked component by
component, and `..` leads back. Directories are made along a path until a file is in the way.
-/

inductive FileNode (β : Type)
  | dir
  | file (content : β)
  deriving DecidableEq

/-- What is at a path. -/
abbrev FileTree (β : Type) := List String → Option (FileNode β)

inductive PathComponent
  | curDir
  | parentDir
  | normal (name : String)
  deriving DecidableEq

namespace PathComponent

/-- Where a path leads from a directory. -/
def walk : List String → List PathComponent → List String
  | dir, [] => dir
  | dir, curDir :: cs => walk dir cs
  | dir, parentDir :: cs => walk dir.dropLast cs
  | dir, normal name :: cs => walk (dir ++ [name]) cs

/-- How far below its start a path ends that does not lead above it. -/
def depth : ℕ → List PathComponent → Option ℕ
  | n, [] => some n
  | n, curDir :: cs => depth n cs
  | 0, parentDir :: _ => none
  | n + 1, parentDir :: cs => depth n cs
  | n, normal _ :: cs => depth (n + 1) cs

theorem walk_append (dir : List String) (cs cs' : List PathComponent) :
    walk dir (cs ++ cs') = walk (walk dir cs) cs' := by
  induction cs generalizing dir with
  | nil => rfl
  | cons c cs ih => cases c <;> exact ih _

theorem walk_normal (dir names : List String) : walk dir (names.map normal) = dir ++ names := by
  induction names generalizing dir with
  | nil => exact (List.append_nil dir).symm
  | cons name names ih =>
    rw [List.map_cons, walk, ih, List.append_assoc]
    rfl

/-- A path that does not lead above its start stays below it. -/
theorem walk_of_depth {root below : List String} {cs : List PathComponent}
    (h : (depth below.length cs).isSome = true) :
    ∃ below', walk (root ++ below) cs = root ++ below' := by
  induction cs generalizing below with
  | nil => exact ⟨below, rfl⟩
  | cons c cs ih =>
    cases c with
    | curDir => exact ih h
    | parentDir =>
      cases below using List.reverseRecOn with
      | nil => cases h
      | append_singleton below name =>
        rw [List.length_append, List.length_singleton, depth] at h
        obtain ⟨below', hwalk⟩ := ih h
        refine ⟨below', ?_⟩
        rw [walk, ← List.append_assoc, List.dropLast_concat, hwalk]
    | normal name =>
      have hdepth : (depth (below ++ [name]).length cs).isSome = true := by
        rw [List.length_append, List.length_singleton]
        exact h
      obtain ⟨below', hwalk⟩ := ih hdepth
      refine ⟨below', ?_⟩
      rw [walk, List.append_assoc, hwalk]

theorem depth_take {n k : ℕ} {cs : List PathComponent} (h : (depth n cs).isSome = true) :
    (depth n (cs.take k)).isSome = true := by
  induction cs generalizing n k with
  | nil => rwa [List.take_nil]
  | cons c cs ih =>
    cases k with
    | zero => rfl
    | succ k =>
      cases c with
      | curDir => exact ih h
      | parentDir =>
        cases n with
        | zero => cases h
        | succ n => exact ih h
      | normal name => exact ih h

end PathComponent

namespace FileTree

open PathComponent

variable {β : Type} {t t' t'' : FileTree β}

def set (t : FileTree β) (path : List String) (node : FileNode β) : FileTree β :=
  Function.update t path (some node)

def fileAt (t : FileTree β) (path : List String) : Option β :=
  match t path with
  | some (.file content) => some content
  | _ => none

/-- Make the directories of a path that are missing, up to a file that is in the way. -/
def createDirAll : FileTree β → List String → List PathComponent →
    FileTree β × Option (List String)
  | t, _, [] => (t, none)
  | t, dir, curDir :: cs => createDirAll t dir cs
  | t, dir, parentDir :: cs => createDirAll t dir.dropLast cs
  | t, dir, normal name :: cs =>
    match t (dir ++ [name]) with
    | some (.file _) => (t, some (dir ++ [name]))
    | some .dir => createDirAll t (dir ++ [name]) cs
    | none => createDirAll (t.set (dir ++ [name]) .dir) (dir ++ [name]) cs

/-- The contents of the files after some were written in turn. -/
def overwrite (ws : List (List String × β)) (files : List String → Option β) :
    List String → Option β :=
  ws.foldl (fun files w => Function.update files w.1 (some w.2)) files

/-- The files of a list were written in turn, and no directory is gone. -/
structure Wrote (ws : List (List String × β)) (t t' : FileTree β) : Prop where
  files : t'.fileAt = overwrite ws t.fileAt
  dirs {path : List String} : t path = some .dir → t' path = some .dir

theorem Wrote.refl (t : FileTree β) : Wrote [] t t := ⟨rfl, id⟩

theorem Wrote.trans {ws ws' : List (List String × β)} (h : Wrote ws t t') (h' : Wrote ws' t' t'') :
    Wrote (ws ++ ws') t t'' where
  files := by rw [h'.files, h.files, overwrite, overwrite, overwrite, List.foldl_append]
  dirs hpath := h'.dirs (h.dirs hpath)

/-- A file that no entry of the list names is as before. -/
theorem overwrite_of_not_mem {ws : List (List String × β)} {files : List String → Option β}
    {path : List String} (h : path ∉ ws.map Prod.fst) : overwrite ws files path = files path := by
  induction ws generalizing files with
  | nil => rfl
  | cons w ws ih =>
    rw [List.map_cons, List.mem_cons, not_or] at h
    exact (ih h.2).trans (Function.update_of_ne h.1 _ _)

theorem wrote_set_file {path : List String} {content : β} (h : t path ≠ some .dir) :
    Wrote [(path, content)] t (t.set path (.file content)) where
  files := by
    funext p
    by_cases hp : p = path
    · subst hp
      simp [fileAt, set, overwrite]
    · simp [fileAt, set, overwrite, Function.update_of_ne hp]
  dirs {p} hp := by
    have hne : p ≠ path := fun heq => h (heq ▸ hp)
    rwa [set, Function.update_of_ne hne]

theorem wrote_set_dir {path : List String} (h : t path = none) :
    Wrote [] t (t.set path .dir) where
  files := by
    funext p
    by_cases hp : p = path
    · subst hp
      simp [fileAt, set, overwrite, h]
    · simp [fileAt, set, overwrite, Function.update_of_ne hp]
  dirs {p} hp := by
    by_cases heq : p = path
    · rw [heq, h] at hp
      cases hp
    · rwa [set, Function.update_of_ne heq]

theorem wrote_createDirAll (t : FileTree β) (dir : List String) (cs : List PathComponent) :
    Wrote [] t (createDirAll t dir cs).1 := by
  induction cs generalizing t dir with
  | nil => exact Wrote.refl t
  | cons c cs ih =>
    cases c with
    | curDir => exact ih t dir
    | parentDir => exact ih t dir.dropLast
    | normal name =>
      rw [createDirAll]
      split
      · exact Wrote.refl t
      · exact ih t _
      · rename_i hnone
        exact (wrote_set_dir hnone).trans (ih _ _)

/-- Directories are made along the path only. -/
theorem createDirAll_of_ne {dir path : List String} {cs : List PathComponent}
    (h : ∀ k, walk dir (cs.take k) ≠ path) : (createDirAll t dir cs).1 path = t path := by
  induction cs generalizing t dir with
  | nil => rfl
  | cons c cs ih =>
    have hrest (k : ℕ) : walk dir (c :: cs.take k) ≠ path := h (k + 1)
    cases c with
    | curDir => exact ih hrest
    | parentDir => exact ih hrest
    | normal name =>
      have hne : path ≠ dir ++ [name] := fun heq => hrest 0 heq.symm
      rw [createDirAll]
      split
      · rfl
      · exact ih hrest
      · rw [ih hrest, set, Function.update_of_ne hne]

end FileTree
