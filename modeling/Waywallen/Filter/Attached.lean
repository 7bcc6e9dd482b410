import Mathlib.Data.Set.Basic
import Waywallen.Filter.Duplicates
import Waywallen.Wallpaper.Properties

/-!
# What is attached to the rows of a file

Playlists refer to rows, and a row carries the user's properties and layout for the wallpaper. When
the sweep deletes a row, the playlist entries that refer to it are deleted with it, and its columns
are gone; nothing is moved to the row that stays.
-/

namespace Waywallen

/-- How the texts of the two columns are read. -/
structure OverrideTexts where
  /-- The properties, if the text is a map from texts to texts. -/
  properties : String → Option (HashMap String String)
  /-- The text with canonical keys. -/
  canonical : String → String
  layout : String → Option WallpaperLayoutOverride
  percent : String → Option ℕ

section

variable (texts : OverrideTexts) (i : Item)

/-- What a row gives to the renderer, properties or a text that could not be read, and the layout. -/
def getWallpaperRenderProperties :
    Option (HashMap String String ⊕ String) × WallpaperLayoutOverride :=
  let split : Option (HashMap String String ⊕ String) × WallpaperLayoutOverride :=
    match i.userPropertyOverrides.filter fun raw => trim raw ≠ "" with
    | none => (none, default)
    | some raw =>
      match texts.properties raw with
      | none => (some (.inr (texts.canonical raw)), default)
      | some m =>
        let (renderer, layout) :=
          splitRendererProperties texts.percent (normalizeUserPropertyOverrides m)
        (if renderer.keys = [] then none else some (.inl renderer), layout)
  (split.1, (i.wallpaperLayoutOverride.bind texts.layout).getD split.2)

end

/-- One thing that the user has set for a wallpaper. -/
inductive Override
  | property (key value : String)
  | text (raw : String)
  | fillmode (mode : FillMode)
  | location (location : Location)
  | rotation (rotation : Rotation)

def Item.Has (texts : OverrideTexts) (i : Item) : Override → Prop
  | .property key value => ∃ m, (getWallpaperRenderProperties texts i).1 = some (.inl m) ∧
      m.lookup key = some value
  | .text raw => (getWallpaperRenderProperties texts i).1 = some (.inr raw)
  | .fillmode mode => (getWallpaperRenderProperties texts i).2.fillmode = some mode
  | .location location => (getWallpaperRenderProperties texts i).2.location = some location
  | .rotation rotation => (getWallpaperRenderProperties texts i).2.rotation = some rotation

namespace Db

variable (files : Files) (texts : OverrideTexts) (db db' : Db)

/-- The files of a playlist. -/
def playlistFiles (playlistId : ℕ) : Set String :=
  {file | ∃ e ∈ db.playlistItems, e.playlistId = playlistId ∧
    ∃ i ∈ db.items, i.id = e.entryId ∧ db.fileOf files i = some file}

/-- Some row of the file has the override. -/
def FileHas (file : String) (x : Override) : Prop :=
  ∃ i ∈ db.items, db.fileOf files i = some file ∧ i.Has texts x

/-- Every playlist has the files it had, and every file the overrides it had. -/
structure KeepsAttached : Prop where
  playlists : ∀ p, db'.playlistFiles files p = db.playlistFiles files p
  overrides : ∀ file x, db.FileHas files texts file x → db'.FileHas files texts file x

/-- The row of a file with the longest root and, of these, the lowest id is itself in the playlists
that another row of the file is in, and has itself the overrides that another row has. -/
structure WinnersHold : Prop where
  playlists : ∀ i ∈ db.items, ∀ j ∈ db.items, db.fileOf files i = db.fileOf files j →
    db.Wins files Item.Older j → ∀ e ∈ db.playlistItems, e.entryId = i.id →
      ∃ e' ∈ db.playlistItems, e'.playlistId = e.playlistId ∧ e'.entryId = j.id
  overrides : ∀ i ∈ db.items, ∀ j ∈ db.items, db.fileOf files i = db.fileOf files j →
    db.Wins files Item.Older j → ∀ x, i.Has texts x → j.Has texts x

end Db

section

variable {files : Files} {texts : OverrideTexts} {db db' : Db} {i j : Item}

namespace Db.Deduplicated

variable (h : db.Deduplicated files db')

include h

theorem playlistFiles_subset (p : ℕ) : db'.playlistFiles files p ⊆ db.playlistFiles files p := by
  rintro file ⟨e, he, hp, i, hi, hid, hfile⟩
  refine ⟨e, ((h.playlistItems e).1 he).1, hp, i, ((h.items i).1 hi).1, hid, ?_⟩
  rwa [h.fileOf] at hfile

/-- The row of a file that is left. -/
theorem eq_of_wins (hi : i ∈ db'.items) (hj : j ∈ db.items)
    (hfile : db.fileOf files i = db.fileOf files j) (hwins : db.Wins files Item.Older j) :
    i = j := by
  obtain ⟨hi, hiwins⟩ := (h.items i).1 hi
  exact Db.Wins.unique Item.Older.asymm hi hj hfile hiwins hwins

theorem keepsAttached_iff : db.KeepsAttached files texts db' ↔ db.WinnersHold files texts := by
  constructor
  · intro hkeeps
    refine ⟨fun i hi j hj hfile hwins e he hid => ?_, fun i hi j hj hfile hwins x hx => ?_⟩
    · obtain ⟨lib, hlib⟩ := Db.exists_libraryOf hi
      have hmem : fileKey files (resourceOf i lib) ∈ db.playlistFiles files e.playlistId :=
        ⟨e, he, rfl, i, hi, hid.symm, Db.fileOf_eq hlib⟩
      rw [← hkeeps.playlists] at hmem
      obtain ⟨e', he', hp, k, hk, hkid, hkfile⟩ := hmem
      rw [h.fileOf, ← Db.fileOf_eq hlib, hfile] at hkfile
      rw [h.eq_of_wins hk hj hkfile hwins] at hkid
      exact ⟨e', ((h.playlistItems e').1 he').1, hp, hkid.symm⟩
    · obtain ⟨lib, hlib⟩ := Db.exists_libraryOf hi
      obtain ⟨k, hk, hkfile, hkx⟩ := hkeeps.overrides _ x ⟨i, hi, Db.fileOf_eq hlib, hx⟩
      rw [h.fileOf, ← Db.fileOf_eq hlib, hfile] at hkfile
      rwa [h.eq_of_wins hk hj hkfile hwins] at hkx
  · intro hhold
    refine ⟨fun p => subset_antisymm (h.playlistFiles_subset p) ?_, fun file x => ?_⟩
    · rintro file ⟨e, he, hp, i, hi, hid, hfile⟩
      obtain ⟨j, hj, hjfile, hwins⟩ := Db.exists_wins_older files hi
      obtain ⟨e', he', hp', hid'⟩ := hhold.playlists i hi j hj hjfile.symm hwins e he hid.symm
      refine ⟨e', (h.playlistItems e').2 ⟨he', fun k hk hkid => ?_⟩, hp'.trans hp, j,
        (h.items j).2 ⟨hj, hwins⟩, hid'.symm, ?_⟩
      · rwa [Table.id_injective hk hj (hkid.trans hid')]
      · rw [h.fileOf, hjfile, hfile]
    · rintro ⟨i, hi, hfile, hx⟩
      obtain ⟨j, hj, hjfile, hwins⟩ := Db.exists_wins_older files hi
      refine ⟨j, (h.items j).2 ⟨hj, hwins⟩, ?_, hhold.overrides i hi j hj hjfile.symm hwins x hx⟩
      rw [h.fileOf, hjfile, hfile]

end Db.Deduplicated

/-- The sweep keeps what is attached to a file exactly if the row that stays has all of it. -/
theorem deduplicateDbItems_keepsAttached (files : Files) (texts : OverrideTexts) (o : Outside)
    (s : Session) :
    match deduplicateDbItems files o s with
    | .ok _ s' => s.db.KeepsAttached files texts s'.db ↔ s.db.WinnersHold files texts
    | .error _ s' => s.db.KeepsAttached files texts s'.db := by
  cases h : deduplicateDbItems files o s with
  | ok n s' => exact (deduplicated_of_ok h).keepsAttached_iff
  | error e s' =>
    obtain ⟨hdb, -⟩ := of_deduplicate_error h
    exact hdb ▸ ⟨fun _ => rfl, fun _ _ hx => hx⟩

end

/-! ## A playlist with the row that is shown -/

/-- The second name of the picture, which is the one that is shown, is in a playlist. -/
def listedDb : Db :=
  { linkedDb with playlistItems := [⟨1, 7, 2, 0⟩] }

theorem not_keepsAttached : ¬ ∀ (files : Files) (texts : OverrideTexts) (o : Outside)
    (s s' : Session) (n : ℕ), deduplicateDbItems files o s = .ok n s' →
      s.db.KeepsAttached files texts s'.db := by
  intro h
  cases hrun : deduplicateDbItems oneFile nothingFails ⟨listedDb, 0, []⟩ with
  | error e s' =>
    obtain ⟨-, n, hn⟩ := of_deduplicate_error hrun
    cases hn
  | ok n s' =>
    have hkeeps := h oneFile ⟨fun _ => none, id, fun _ => none, fun _ => none⟩ _ _ _ _ hrun
    have hhold := (deduplicated_of_ok hrun).keepsAttached_iff.1 hkeeps
    have hrows : ∃ i ∈ listedDb.items.rows, ∃ j ∈ listedDb.items.rows,
        listedDb.fileOf oneFile i = listedDb.fileOf oneFile j ∧
        listedDb.Wins oneFile Item.Older j ∧ ∃ e ∈ listedDb.playlistItems, e.entryId = i.id ∧
          ∀ e' ∈ listedDb.playlistItems, e'.playlistId = e.playlistId → e'.entryId ≠ j.id := by
      decide
    obtain ⟨i, hi, j, hj, hfile, hwins, e, he, hid, hnot⟩ := hrows
    obtain ⟨e', he', hp, hid'⟩ := hhold.playlists i hi j hj hfile hwins e he hid
    exact hnot e' he' hp hid'

end Waywallen
