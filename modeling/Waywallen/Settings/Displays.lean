import Waywallen.Library.Transition
import Waywallen.Routing.Router
import Waywallen.Store.Repo

/-!
# The preferences of the displays

Who writes them: the layout and alias edits, an apply, a playlist that is assigned, and a display
that registers. The edits take an entry away once it is empty; the layout of a display then falls
back to the entry under its name.
-/

namespace Waywallen

open Transition

namespace DisplayPrefs

instance : Inhabited DisplayPrefs :=
  ⟨⟨none, none, none, none, none, none, none, none, none⟩⟩

def isEmpty (p : DisplayPrefs) : Bool :=
  p.fillmode.isNone && p.location.isNone && p.align.isNone && p.rotation.isNone &&
    p.autopauseMode.isNone && p.autopauseResumeMs.isNone && p.lastWallpaper.isNone &&
    p.displayAlias.isNone && p.activePlaylistId.isNone

/-- No field of the layout is overridden. -/
def LayoutFree (p : DisplayPrefs) : Prop :=
  p.fillmode = none ∧ p.location = none ∧ p.align = none ∧ p.rotation = none

instance (p : DisplayPrefs) : Decidable p.LayoutFree := inferInstanceAs (Decidable (_ ∧ _))

/-- A field is set that nothing ever clears. -/
def Anchored (p : DisplayPrefs) : Prop :=
  p.lastWallpaper ≠ none ∨ p.autopauseMode ≠ none ∨ p.autopauseResumeMs ≠ none

instance (p : DisplayPrefs) : Decidable p.Anchored := inferInstanceAs (Decidable (_ ∨ _))

end DisplayPrefs

/-- What `setDisplayLayout` is asked to change; a field that is neither given nor cleared stays. -/
structure LayoutEdit where
  newFillmode : Option FillMode
  newLocation : Option Location
  newAlign : Option Align
  newRotation : Option Rotation
  clearFillmode : Bool
  clearAlign : Bool
  clearRotation : Bool
deriving DecidableEq

def LayoutEdit.apply (e : LayoutEdit) (entry : DisplayPrefs) : DisplayPrefs :=
  let entry := if e.clearFillmode then { entry with fillmode := none } else entry
  let entry := match e.newFillmode with
    | some v => { entry with fillmode := some v }
    | none => entry
  let entry := if e.clearAlign then { entry with location := none, align := none } else entry
  let entry := match e.newLocation with
    | some v => { entry with location := some v, align := none }
    | none => entry
  let entry := match e.newAlign with
    | some v => if e.newLocation.isNone then { entry with align := some v, location := none }
        else entry
    | none => entry
  let entry := if e.clearRotation then { entry with rotation := none } else entry
  match e.newRotation with
  | some v => { entry with rotation := some v }
  | none => entry

/-- A blank alias is none. -/
def editAlias (newAlias : Option String) (clear : Bool) (entry : DisplayPrefs) : DisplayPrefs :=
  let entry := if clear then { entry with displayAlias := none } else entry
  match newAlias with
  | some v =>
      let trimmed := trim v
      { entry with displayAlias := if trimmed = "" then none else some trimmed }
  | none => entry

namespace Settings

variable (s : Settings)

/-- The entry under the key, made if it is missing and changed by `f`. -/
def updateEntry (key : String) (f : DisplayPrefs → DisplayPrefs) : Settings :=
  { s with displays := s.displays.insert key (f ((s.displayPrefs key).getD default)) }

/-- The same, and the entry is taken away if that leaves it empty. -/
def updatePruned (key : String) (f : DisplayPrefs → DisplayPrefs) : Settings :=
  if (f ((s.displayPrefs key).getD default)).isEmpty then
    { s with displays := s.displays.erase key }
  else
    s.updateEntry key f

def setDisplayLayout (key : String) (edit : LayoutEdit) : Settings :=
  s.updatePruned key edit.apply

def setDisplayAlias (key : String) (newAlias : Option String) (clear : Bool) : Settings :=
  s.updatePruned key (editAlias newAlias clear)

/-- What an apply records: the wallpaper, for each of its displays and for displays without a
record. -/
def recordApply (keys : List String) (wallpaperId : String) : Settings :=
  { keys.foldl (fun s key => s.updateEntry key fun prefs =>
      { prefs with lastWallpaper := some wallpaperId }) s with
    lastWallpaper := some wallpaperId }

def persistAssignment (key : String) (playlistId : Option ℤ) : Settings :=
  s.updateEntry key fun prefs => { prefs with activePlaylistId := playlistId }

/-- The layout of a display that overrides nothing. -/
def globalLayout : ResolvedLayout where
  fillmode := s.layout.fillmode
  location := s.layout.location.getD (.fromAlign s.layout.align)
  rotation := s.layout.rotation

end Settings

/-- A mutation of the settings. A restart reads back what was saved, so that all it does to the
entries is that the displays register again. -/
inductive SettingsMutation
  | setDisplayLayout (key : String) (edit : LayoutEdit)
  | setDisplayAlias (key : String) (newAlias : Option String) (clear : Bool)
  | recordApply (keys : List String) (wallpaperId : String)
  | persistAssignment (key : String) (playlistId : Option ℤ)
  | registerDisplay (reg : DisplayRegistration)
  | settingsSet (layout : LayoutDefaults) (autopause : AutopauseDefaults)

namespace SettingsMutation

def apply (s : Settings) : SettingsMutation → Settings
  | setDisplayLayout key edit => s.setDisplayLayout key edit
  | setDisplayAlias key newAlias clear => s.setDisplayAlias key newAlias clear
  | recordApply keys wallpaperId => s.recordApply keys wallpaperId
  | persistAssignment key playlistId => s.persistAssignment key playlistId
  | registerDisplay reg => s.migrate reg
  | settingsSet layout autopause => { s with layout := layout, autopause := autopause }

def step (s : Settings) (m : SettingsMutation) : Option Settings := some (m.apply s)

theorem run_eq (s : Settings) (ms : List SettingsMutation) :
    run step s ms = some (ms.foldl (fun s m => m.apply s) s) := by
  induction ms generalizing s with
  | nil => rfl
  | cons m ms ih => exact (run_cons_eq_some step).2 ⟨_, rfl, ih _⟩

end SettingsMutation

/-! ## What a mutation does to an entry -/

theorem editAlias_eq (newAlias : Option String) (clear : Bool) (entry : DisplayPrefs) :
    ∃ a, editAlias newAlias clear entry = { entry with displayAlias := a } := by
  unfold editAlias
  cases newAlias <;> cases clear <;> exact ⟨_, rfl⟩

section Entries

variable (s : Settings) (key j : String) (f : DisplayPrefs → DisplayPrefs)

theorem Settings.displayPrefs_updateEntry : (s.updateEntry key f).displayPrefs j =
    if j = key then some (f ((s.displayPrefs key).getD default)) else s.displayPrefs j :=
  HashMap.lookup_insert_eq ..

theorem Settings.displayPrefs_updatePruned : (s.updatePruned key f).displayPrefs j =
    if j = key then (some (f ((s.displayPrefs key).getD default))).filter fun p => !p.isEmpty
    else s.displayPrefs j := by
  unfold Settings.updatePruned
  split
  · rename_i hempty
    refine (HashMap.lookup_erase_eq ..).trans ?_
    simp only [Option.filter_some, hempty, Bool.not_true, Bool.false_eq_true, if_false]
    rfl
  · rename_i hfull
    simp only [Settings.displayPrefs_updateEntry, Option.filter_some, hfull, Bool.not_false,
      if_true]

theorem Settings.displayPrefs_recordApply (keys : List String) (wallpaperId : String) :
    (s.recordApply keys wallpaperId).displayPrefs j =
      if j ∈ keys then
        some { (s.displayPrefs j).getD default with lastWallpaper := some wallpaperId }
      else s.displayPrefs j := by
  let record (s : Settings) (key : String) := s.updateEntry key fun prefs =>
    { prefs with lastWallpaper := some wallpaperId }
  have hfold : (keys.foldl record s).displayPrefs j = if j ∈ keys then
      some { (s.displayPrefs j).getD default with lastWallpaper := some wallpaperId }
      else s.displayPrefs j := by
    induction keys generalizing s with
    | nil => rfl
    | cons k keys ih =>
      rw [List.foldl_cons, ih, Settings.displayPrefs_updateEntry]
      by_cases hk : j = k
      · subst hk
        by_cases hj : j ∈ keys <;> simp [hj]
      · simp [hk]
  exact hfold

theorem Settings.displayPrefs_migrate (reg : DisplayRegistration) :
    (s.migrate reg).displayPrefs j = if reg.instanceId = some j then
      (s.displayPrefs j).or (s.displayPrefs reg.name) else s.displayPrefs j := by
  unfold Settings.migrate
  cases hiid : reg.instanceId with
  | none => simp
  | some iid =>
    dsimp only
    cases hprefs : s.displayPrefs iid with
    | some p =>
      dsimp only
      by_cases hj : iid = j
      · subst hj
        simp [hprefs]
      · simp [hj]
    | none =>
      cases hlegacy : s.displayPrefs reg.name with
      | none =>
        dsimp only
        by_cases hj : iid = j
        · subst hj
          simp [hprefs]
        · simp [hj]
      | some legacy =>
        refine (HashMap.lookup_insert_eq ..).trans ?_
        by_cases hj : j = iid
        · subst hj
          simp [hprefs]
        · have hne : iid ≠ j := fun h => hj h.symm
          simp [hj, hne, Settings.displayPrefs]

end Entries

/-! ## Empty entries -/

/-- Empty entries are pruned. -/
def Settings.Tidy (s : Settings) : Prop :=
  ∀ key p, s.displayPrefs key = some p → p.isEmpty = false

/-- A playlist is only taken from a display whose entry has another field set. -/
def SettingsMutation.LeavesField (s : Settings) : SettingsMutation → Prop
  | persistAssignment key none => ∃ p, s.displayPrefs key = some p ∧
      { p with activePlaylistId := none }.isEmpty = false
  | _ => True

theorem Settings.Tidy.updatePruned {s : Settings} (hs : s.Tidy) (key : String)
    (f : DisplayPrefs → DisplayPrefs) : (s.updatePruned key f).Tidy := by
  intro j p hp
  rw [Settings.displayPrefs_updatePruned] at hp
  split at hp
  · simpa using (Option.filter_eq_some_iff.1 hp).2
  · exact hs j p hp

theorem Settings.Tidy.updateEntry_iff {s : Settings} (hs : s.Tidy) (key : String)
    (f : DisplayPrefs → DisplayPrefs) : (s.updateEntry key f).Tidy ↔
      (f ((s.displayPrefs key).getD default)).isEmpty = false := by
  constructor
  · intro h
    refine h key _ ?_
    rw [Settings.displayPrefs_updateEntry, if_pos rfl]
  · intro h j p hp
    rw [Settings.displayPrefs_updateEntry] at hp
    split at hp
    · exact Option.some.inj hp ▸ h
    · exact hs j p hp

/-- A mutation keeps the entries tidy exactly if it leaves a field to the entry it writes. -/
theorem SettingsMutation.tidy_iff {s : Settings} (hs : s.Tidy) (m : SettingsMutation) :
    (m.apply s).Tidy ↔ m.LeavesField s := by
  cases m with
  | setDisplayLayout key edit => exact iff_of_true (hs.updatePruned key _) trivial
  | setDisplayAlias key newAlias clear => exact iff_of_true (hs.updatePruned key _) trivial
  | recordApply keys wallpaperId =>
    refine iff_of_true (fun j p hp => ?_) trivial
    rw [SettingsMutation.apply, Settings.displayPrefs_recordApply] at hp
    split at hp
    · cases hp
      simp [DisplayPrefs.isEmpty]
    · exact hs j p hp
  | persistAssignment key playlistId =>
    refine (hs.updateEntry_iff key _).trans ?_
    cases playlistId with
    | some pid => simp [SettingsMutation.LeavesField, DisplayPrefs.isEmpty]
    | none =>
      cases hp : s.displayPrefs key with
      | none => simp [SettingsMutation.LeavesField, hp, DisplayPrefs.isEmpty, default]
      | some p => simp [SettingsMutation.LeavesField, hp]
  | registerDisplay reg =>
    refine iff_of_true (fun j p hp => ?_) trivial
    rw [SettingsMutation.apply, Settings.displayPrefs_migrate] at hp
    split at hp
    · rcases Option.or_eq_some_iff.1 hp with hown | ⟨-, hlegacy⟩
      · exact hs _ _ hown
      · exact hs _ _ hlegacy
    · exact hs j p hp
  | settingsSet layout autopause => exact iff_of_true hs trivial

/-- Along a run no entry is ever empty exactly if no step takes the last field of an entry, or
makes an entry, by taking a playlist away. -/
theorem SettingsMutation.tidy_along_iff (s : Settings) (hs : s.Tidy)
    (ms : List SettingsMutation) : Along step (fun s m => (m.apply s).Tidy) s ms ↔
      Along step (fun s m => m.LeavesField s) s ms := by
  have h := along_iff_of_step (C := fun s m => m.LeavesField s)
    (fun s m t hs (ht : step s m = some t) => Option.some.inj ht ▸ m.tidy_iff hs) hs (run_eq s ms)
  simpa only [step, Option.some.injEq, forall_eq'] using h

theorem tidy_default : (default : Settings).Tidy := by
  rintro key p ⟨⟩

/-- An assignment that is taken back from a display with a wallpaper leaves no empty entry. -/
theorem tidy_along_recorded :
    Along SettingsMutation.step (fun s m => (m.apply s).Tidy) default
      [.recordApply ["HDMI-A-1"] "wp", .persistAssignment "HDMI-A-1" (some 7),
        .persistAssignment "HDMI-A-1" none] := by
  refine (SettingsMutation.tidy_along_iff default tidy_default _).2 ?_
  refine along_cons.2 ⟨trivial, ?_⟩
  rintro _ ⟨⟩
  refine along_cons.2 ⟨trivial, ?_⟩
  rintro _ ⟨⟩
  refine along_cons.2 ⟨⟨_, rfl, by decide⟩, ?_⟩
  rintro _ ⟨⟩
  trivial

/-- A playlist that is started on a display and stopped leaves an empty entry behind. -/
theorem not_tidy_run : ¬∀ (s : Settings) (ms : List SettingsMutation), s.Tidy →
    Settings.Tidy (ms.foldl (fun s m => m.apply s) s) := by
  intro h
  have hempty := h default
    [.persistAssignment "HDMI-A-1" (some 7), .persistAssignment "HDMI-A-1" none] tidy_default
    "HDMI-A-1" default (by decide)
  exact absurd hempty (by decide)

/-! ## The layout of a display -/

/-- The mutation leaves the layout of the display alone: no layout edit under its instance id or
its name, and no other name registers under its instance id, nor under its name. -/
def SettingsMutation.Unrelated (iid name : String) : SettingsMutation → Prop
  | setDisplayLayout key _ => key ≠ iid ∧ key ≠ name
  | registerDisplay reg => (reg.instanceId = some iid → reg.name = name) ∧
      (reg.instanceId = some name → reg.name = name)
  | _ => True

/-- The entry under the name cannot show through: it overrides nothing, or the entry under the
instance id holds a field that is never cleared. -/
def Settings.Covers (s : Settings) (iid name : String) : Prop :=
  iid = name ∨ (∀ p, s.displayPrefs name = some p → p.LayoutFree) ∨
    ∃ p, s.displayPrefs iid = some p ∧ p.Anchored

/-- What holds of a display whose layout has been cleared. -/
structure Settings.Cleared (s : Settings) (iid name : String) : Prop where
  own : ∀ p, s.displayPrefs iid = some p → p.LayoutFree
  covers : s.Covers iid name

/-- The entry overrides no layout if it did not, and keeps the fields that are never cleared. -/
structure EntryKept (old new : Option DisplayPrefs) : Prop where
  free : (∀ p, old = some p → p.LayoutFree) → ∀ p, new = some p → p.LayoutFree
  anchored : ∀ p, old = some p → p.Anchored → ∃ q, new = some q ∧ q.Anchored

namespace EntryKept

variable {old : Option DisplayPrefs} {f : DisplayPrefs → DisplayPrefs}

theorem refl (old : Option DisplayPrefs) : EntryKept old old :=
  ⟨id, fun p hp h => ⟨p, hp, h⟩⟩

theorem layoutFree_getD (h : ∀ p, old = some p → p.LayoutFree) :
    (old.getD default).LayoutFree := by
  cases old with
  | none => exact ⟨rfl, rfl, rfl, rfl⟩
  | some p => exact h p rfl

theorem update (hfree : ∀ p : DisplayPrefs, p.LayoutFree → (f p).LayoutFree)
    (hanchored : ∀ p : DisplayPrefs, p.Anchored → (f p).Anchored) :
    EntryKept old (some (f (old.getD default))) := by
  refine ⟨fun h p hp => ?_, fun p hp h => ?_⟩
  · obtain rfl := Option.some.inj hp
    exact hfree _ (layoutFree_getD h)
  · subst hp
    exact ⟨_, rfl, hanchored p h⟩

theorem not_isEmpty_of_anchored {p : DisplayPrefs} (h : p.Anchored) : p.isEmpty = false := by
  rcases h with h | h | h <;> simp [DisplayPrefs.isEmpty, Option.isNone_eq_false_iff,
    Option.isSome_iff_ne_none, h]

theorem pruned (hfree : ∀ p : DisplayPrefs, p.LayoutFree → (f p).LayoutFree)
    (hanchored : ∀ p : DisplayPrefs, p.Anchored → (f p).Anchored) :
    EntryKept old ((some (f (old.getD default))).filter fun p => !p.isEmpty) := by
  have h : EntryKept old (some (f (old.getD default))) := update hfree hanchored
  refine ⟨fun hold p hp => h.free hold p (Option.filter_eq_some_iff.1 hp).1,
    fun p hp hanchor => ?_⟩
  obtain ⟨q, hq, hanchored'⟩ := h.anchored p hp hanchor
  exact ⟨q, Option.filter_eq_some_iff.2 ⟨hq, by simp [not_isEmpty_of_anchored hanchored']⟩,
    hanchored'⟩

end EntryKept

section Layout

variable {s s' : Settings} {iid name : String}

theorem Settings.resolvedLayout_of_layoutFree {key : String}
    (h : ∀ p, s.displayPrefs key = some p → p.LayoutFree) :
    s.resolvedLayout key = s.globalLayout := by
  unfold Settings.resolvedLayout Settings.globalLayout
  cases hp : s.displayPrefs key with
  | none => rfl
  | some p =>
    obtain ⟨hfill, hloc, halign, hrot⟩ := h p hp
    simp [hfill, hloc, halign, hrot]

theorem Settings.Cleared.resolvedLayout (h : s.Cleared iid name) {info : DisplayInfo}
    (hiid : info.instanceId = some iid) (hname : info.name = name) :
    Waywallen.resolvedLayout (some s) info = s.globalLayout := by
  have hkey : Waywallen.resolvedLayout (some s) info = s.resolvedLayout (prefsKey info s) := rfl
  rw [hkey, prefsKey, hiid]
  dsimp only
  split
  · exact Settings.resolvedLayout_of_layoutFree h.own
  · rename_i hnone
    rw [Option.not_isSome_iff_eq_none] at hnone
    subst hname
    refine Settings.resolvedLayout_of_layoutFree ?_
    rcases h.covers with heq | hlegacy | ⟨p, hp, -⟩
    · exact heq ▸ h.own
    · exact hlegacy
    · cases hnone.symm.trans hp

theorem Settings.Cleared.mono (h : s.Cleared iid name)
    (hown : EntryKept (s.displayPrefs iid) (s'.displayPrefs iid))
    (hnamed : EntryKept (s.displayPrefs name) (s'.displayPrefs name)) : s'.Cleared iid name := by
  refine ⟨hown.free h.own, ?_⟩
  rcases h.covers with heq | hlegacy | ⟨p, hp, hanchored⟩
  · exact .inl heq
  · exact .inr (.inl (hnamed.free hlegacy))
  · exact .inr (.inr (hown.anchored p hp hanchored))

/-- Every other mutation than an edit of the layout leaves a cleared display cleared. -/
theorem Settings.Cleared.step (h : s.Cleared iid name) {m : SettingsMutation}
    (hm : m.Unrelated iid name) : (m.apply s).Cleared iid name := by
  cases m with
  | setDisplayLayout key edit =>
    have hsame (j : String) (hj : key ≠ j) :
        EntryKept (s.displayPrefs j) ((s.setDisplayLayout key edit).displayPrefs j) := by
      rw [Settings.setDisplayLayout, Settings.displayPrefs_updatePruned, if_neg hj.symm]
      exact .refl _
    exact h.mono (hsame iid hm.1) (hsame name hm.2)
  | setDisplayAlias key newAlias clear =>
    have hkept (j : String) :
        EntryKept (s.displayPrefs j) ((s.setDisplayAlias key newAlias clear).displayPrefs j) := by
      rw [Settings.setDisplayAlias, Settings.displayPrefs_updatePruned]
      split
      · rename_i hj
        subst hj
        refine .pruned (fun p hp => ?_) fun p hp => ?_
        · obtain ⟨a, ha⟩ := editAlias_eq newAlias clear p
          exact ha ▸ hp
        · obtain ⟨a, ha⟩ := editAlias_eq newAlias clear p
          exact ha ▸ hp
      · exact .refl _
    exact h.mono (hkept iid) (hkept name)
  | recordApply keys wallpaperId =>
    have hkept (j : String) :
        EntryKept (s.displayPrefs j) ((s.recordApply keys wallpaperId).displayPrefs j) := by
      rw [Settings.displayPrefs_recordApply]
      split
      · exact .update (f := fun p => { p with lastWallpaper := some wallpaperId })
          (fun p hp => hp) fun p hp => .inl (Option.some_ne_none _)
      · exact .refl _
    exact h.mono (hkept iid) (hkept name)
  | persistAssignment key playlistId =>
    have hkept (j : String) :
        EntryKept (s.displayPrefs j) ((s.persistAssignment key playlistId).displayPrefs j) := by
      rw [Settings.persistAssignment, Settings.displayPrefs_updateEntry]
      split
      · rename_i hj
        subst hj
        exact .update (f := fun p => { p with activePlaylistId := playlistId })
          (fun p hp => hp) fun p hp => hp
      · exact .refl _
    exact h.mono (hkept iid) (hkept name)
  | registerDisplay reg =>
    obtain ⟨hown, hnamed⟩ := hm
    have hname : EntryKept (s.displayPrefs name) ((s.migrate reg).displayPrefs name) := by
      rw [Settings.displayPrefs_migrate]
      split
      · rename_i hreg
        rw [hnamed hreg, Option.or_self]
        exact .refl _
      · exact .refl _
    by_cases hreg : reg.instanceId = some iid
    · have hprefs : (s.migrate reg).displayPrefs iid =
          (s.displayPrefs iid).or (s.displayPrefs name) := by
        rw [Settings.displayPrefs_migrate, if_pos hreg, hown hreg]
      cases hiid : s.displayPrefs iid with
      | some p =>
        refine h.mono ?_ hname
        rw [SettingsMutation.apply, hprefs, hiid, Option.some_or]
        exact .refl _
      | none =>
        -- What the entry under the name says is copied.
        rw [hiid, Option.none_or] at hprefs
        rcases h.covers with heq | hlegacy | ⟨p, hp, -⟩
        · exact ⟨fun p hp => h.own p (heq ▸ hprefs.symm.trans hp), .inl heq⟩
        · exact ⟨fun p hp => hlegacy p (hprefs.symm.trans hp), .inr (.inl (hname.free hlegacy))⟩
        · cases hiid.symm.trans hp
    · refine h.mono ?_ hname
      rw [SettingsMutation.apply, Settings.displayPrefs_migrate, if_neg hreg]
      exact .refl _
  | settingsSet layout autopause => exact h.mono (.refl _) (.refl _)

theorem Settings.Cleared.run (h : s.Cleared iid name) {ms : List SettingsMutation}
    (hms : ∀ m ∈ ms, m.Unrelated iid name) :
    (ms.foldl (fun s m => m.apply s) s).Cleared iid name := by
  induction ms generalizing s with
  | nil => exact h
  | cons m ms ih =>
    exact ih (h.step (hms m List.mem_cons_self)) fun k hk => hms k (List.mem_cons_of_mem _ hk)

end Layout

/-! ## A layout that shows through -/

/-- A layout that differs from the one the entry asks for, in every field it asks for. -/
def LayoutDefaults.other (p : DisplayPrefs) : LayoutDefaults where
  fillmode := if p.fillmode = some .stretched then .centered else .stretched
  location := some (if (p.location.or (p.align.map .fromAlign)) = some ⟨0, 0⟩ then ⟨100, 100⟩
    else ⟨0, 0⟩)
  align := default
  rotation := if p.rotation = some .normal then .cw90 else .normal

section Other

variable {p : DisplayPrefs}

theorem LayoutDefaults.fillmode_other
    (h : p.fillmode.getD (LayoutDefaults.other p).fillmode = (LayoutDefaults.other p).fillmode) :
    p.fillmode = none := by
  cases hf : p.fillmode with
  | none => rfl
  | some f => cases f <;> simp [LayoutDefaults.other, hf] at h

theorem LayoutDefaults.rotation_other
    (h : p.rotation.getD (LayoutDefaults.other p).rotation = (LayoutDefaults.other p).rotation) :
    p.rotation = none := by
  cases hf : p.rotation with
  | none => rfl
  | some f => cases f <;> simp [LayoutDefaults.other, hf] at h

theorem LayoutDefaults.location_other
    (h : (p.location.or (p.align.map .fromAlign)).getD
        ((LayoutDefaults.other p).location.getD (.fromAlign (LayoutDefaults.other p).align)) =
      (LayoutDefaults.other p).location.getD (.fromAlign (LayoutDefaults.other p).align)) :
    p.location = none ∧ p.align = none := by
  unfold LayoutDefaults.other at h
  generalize hl : p.location.or (p.align.map .fromAlign) = l at h
  cases l with
  | none => simpa using hl
  | some l =>
    rw [Option.getD_some, Option.getD_some] at h
    by_cases hzero : l = ⟨0, 0⟩
    · subst hzero
      simp at h
    · simp [hzero] at h

end Other

theorem Settings.resolvedLayout_other {s : Settings} {key : String} {p : DisplayPrefs}
    (hp : s.displayPrefs key = some p) (hlayout : s.layout = .other p) (hfree : ¬p.LayoutFree) :
    s.resolvedLayout key ≠ s.globalLayout := by
  intro heq
  have hfill := congrArg ResolvedLayout.fillmode heq
  have hloc := congrArg ResolvedLayout.location heq
  have hrot := congrArg ResolvedLayout.rotation heq
  simp only [Settings.resolvedLayout, Settings.globalLayout, hp, hlayout, Option.bind_some]
    at hfill hloc hrot
  have hnone := LayoutDefaults.location_other hloc
  exact hfree ⟨LayoutDefaults.fillmode_other hfill, hnone.1, hnone.2,
    LayoutDefaults.rotation_other hrot⟩

/-- What takes the last field away from an entry without a layout. -/
def emptied (iid : String) : List SettingsMutation :=
  [.persistAssignment iid none, .setDisplayAlias iid none true]

theorem DisplayPrefs.isEmpty_of_free {p : DisplayPrefs} (hfree : p.LayoutFree)
    (hanchored : ¬p.Anchored) :
    (editAlias none true { p with activePlaylistId := none }).isEmpty = true := by
  obtain ⟨hfill, hloc, halign, hrot⟩ := hfree
  simp only [DisplayPrefs.Anchored, not_or, not_not] at hanchored
  obtain ⟨hwallpaper, hmode, hresume⟩ := hanchored
  simp [editAlias, DisplayPrefs.isEmpty, hfill, hloc, halign, hrot, hwallpaper, hmode, hresume]

/-- An entry without a layout is gone afterwards unless it holds a field that is never cleared;
the entry under the name is what it was. -/
theorem displayPrefs_emptied {s : Settings} {iid : String}
    (hfree : ((s.displayPrefs iid).getD default).LayoutFree)
    (hanchored : ¬((s.displayPrefs iid).getD default).Anchored) (j : String) :
    ((emptied iid).foldl (fun s m => m.apply s) s).displayPrefs j =
      if j = iid then none else s.displayPrefs j := by
  change ((s.persistAssignment iid none).setDisplayAlias iid none true).displayPrefs j = _
  rw [Settings.setDisplayAlias, Settings.displayPrefs_updatePruned, Settings.persistAssignment,
    Settings.displayPrefs_updateEntry, Settings.displayPrefs_updateEntry, if_pos rfl,
    Option.getD_some, Option.filter_some, DisplayPrefs.isEmpty_of_free hfree hanchored]
  by_cases hj : j = iid
  · simp [hj]
  · simp [hj]

/-! ## The layout after it is cleared -/

theorem LayoutEdit.anchored_apply (e : LayoutEdit) (p : DisplayPrefs) :
    (e.apply p).Anchored ↔ p.Anchored := by
  obtain ⟨fill, loc, align, rot, clearFill, clearAlign, clearRot⟩ := e
  cases fill <;> cases loc <;> cases align <;> cases rot <;> cases clearFill <;>
    cases clearAlign <;> cases clearRot <;> exact .rfl

/-- The settings after an edit of the layout and the mutations that follow it. -/
def Settings.afterEdit (s : Settings) (iid : String) (e : LayoutEdit)
    (ms : List SettingsMutation) : Settings :=
  ms.foldl (fun s m => m.apply s) (s.setDisplayLayout iid e)

section Clear

variable {s : Settings} {info : DisplayInfo} {iid : String} {e : LayoutEdit}

theorem Settings.displayPrefs_clear (he : (e.apply ((s.displayPrefs iid).getD default)).LayoutFree)
    (p : DisplayPrefs) (hp : (s.setDisplayLayout iid e).displayPrefs iid = some p) :
    p.LayoutFree := by
  rw [Settings.setDisplayLayout, Settings.displayPrefs_updatePruned, if_pos rfl] at hp
  exact Option.some.inj (Option.filter_eq_some_iff.1 hp).1 ▸ he

theorem Settings.displayPrefs_edit_of_ne {j : String} (hj : j ≠ iid) :
    (s.setDisplayLayout iid e).displayPrefs j = s.displayPrefs j := by
  rw [Settings.setDisplayLayout, Settings.displayPrefs_updatePruned, if_neg hj]

theorem Settings.Covers.edit {name : String} (h : s.Covers iid name) :
    (s.setDisplayLayout iid e).Covers iid name := by
  by_cases heq : iid = name
  · exact .inl heq
  · have hname : (s.setDisplayLayout iid e).displayPrefs name = s.displayPrefs name :=
      Settings.displayPrefs_edit_of_ne (Ne.symm heq)
    rcases h with h | h | ⟨p, hp, hanchored⟩
    · exact absurd h heq
    · exact .inr (.inl fun p hp => h p (hname.symm.trans hp))
    · refine .inr (.inr ⟨e.apply p, ?_, (e.anchored_apply p).2 hanchored⟩)
      have hfull := EntryKept.not_isEmpty_of_anchored ((e.anchored_apply p).2 hanchored)
      rw [Settings.setDisplayLayout, Settings.displayPrefs_updatePruned, if_pos rfl, hp,
        Option.getD_some, Option.filter_some, hfull]
      rfl

theorem Settings.not_anchored_edit
    (h : ∀ p, s.displayPrefs iid = some p → ¬p.Anchored) :
    ¬(((s.setDisplayLayout iid e).displayPrefs iid).getD default).Anchored := by
  have hdefault : ¬(default : DisplayPrefs).Anchored := by decide
  have hold : ¬((s.displayPrefs iid).getD default).Anchored := by
    cases hp : s.displayPrefs iid with
    | none => exact hdefault
    | some p => exact h p hp
  rw [Settings.setDisplayLayout, Settings.displayPrefs_updatePruned, if_pos rfl]
  cases hp : (some (e.apply ((s.displayPrefs iid).getD default))).filter fun p => !p.isEmpty with
  | none => exact hdefault
  | some p =>
    have heq := Option.some.inj (Option.filter_eq_some_iff.1 hp).1
    rw [Option.getD_some, ← heq]
    exact fun hanchored => hold ((e.anchored_apply _).1 hanchored)

/-- Without a field that is never cleared, the entry can be emptied, and the layout under the
name shows through again. -/
theorem Settings.exists_shows_through (hiid : info.instanceId = some iid)
    (he : (e.apply ((s.displayPrefs iid).getD default)).LayoutFree)
    (h : ¬s.Covers iid info.name) :
    ∃ ms, (∀ m ∈ ms, m.Unrelated iid info.name) ∧
      Waywallen.resolvedLayout (some (s.afterEdit iid e ms)) info ≠
        (s.afterEdit iid e ms).globalLayout := by
  simp only [Settings.Covers, not_or, not_forall, not_exists, not_and] at h
  obtain ⟨hne, ⟨p, hp, hfree⟩, hanchored⟩ := h
  have hclear : (((s.setDisplayLayout iid e).displayPrefs iid).getD default).LayoutFree :=
    EntryKept.layoutFree_getD (Settings.displayPrefs_clear he)
  refine ⟨emptied iid ++ [.settingsSet (.other p) s.autopause], ?_, ?_⟩
  · simp [emptied, SettingsMutation.Unrelated]
  · let t := s.afterEdit iid e (emptied iid ++ [.settingsSet (.other p) s.autopause])
    have hprefs (j : String) : t.displayPrefs j =
        if j = iid then none else (s.setDisplayLayout iid e).displayPrefs j := by
      rw [← displayPrefs_emptied hclear (Settings.not_anchored_edit hanchored) j]
      rfl
    have hname : t.displayPrefs info.name = some p := by
      rw [hprefs, if_neg (Ne.symm hne), Settings.displayPrefs_edit_of_ne (Ne.symm hne), hp]
    have hkey : prefsKey info t = info.name := by
      rw [prefsKey, hiid]
      dsimp only
      rw [hprefs, if_pos rfl]
      rfl
    change t.resolvedLayout (prefsKey info t) ≠ t.globalLayout
    rw [hkey]
    exact Settings.resolvedLayout_other hname rfl hfree

/-- A layout that was cleared stays the global one, whatever mutations of other things follow,
exactly if the entry under the name of the display cannot show through. -/
theorem Settings.resolvedLayout_clear_iff (hiid : info.instanceId = some iid)
    (he : (e.apply ((s.displayPrefs iid).getD default)).LayoutFree) :
    (∀ ms, (∀ m ∈ ms, m.Unrelated iid info.name) →
      Waywallen.resolvedLayout (some (s.afterEdit iid e ms)) info =
        (s.afterEdit iid e ms).globalLayout) ↔
        s.Covers iid info.name := by
  constructor
  · intro h
    by_contra hcovers
    obtain ⟨ms, hms, hother⟩ := Settings.exists_shows_through hiid he hcovers
    exact hother (h ms hms)
  · intro h ms hms
    have hcleared : (s.setDisplayLayout iid e).Cleared iid info.name :=
      ⟨Settings.displayPrefs_clear he, h.edit⟩
    exact (hcleared.run hms).resolvedLayout hiid rfl

end Clear

/-- An edit that clears every field of the layout. -/
def LayoutEdit.clearAll : LayoutEdit := ⟨none, none, none, none, true, true, true⟩

def deskReg : DisplayRegistration := ⟨"DP-1", some "desk", 1920, 1080, 60000, ⟨226, 128⟩, none⟩

def deskInfo : DisplayInfo := ⟨1, "DP-1", some "desk", 1920, 1080, 60000⟩

/-- A file from before displays had an instance id. -/
def legacySettings : Settings :=
  { (default : Settings) with
    displays := (∅ : HashMap String DisplayPrefs).insert "DP-1"
      { (default : DisplayPrefs) with fillmode := some .stretched } }

/-- What a display does when it is plugged in again, and an assignment of a playlist to it. -/
def laterMutations : List SettingsMutation :=
  [.registerDisplay deskReg, .persistAssignment "desk" (some 3)]

/-- Once the entry has recorded a wallpaper, its layout stays cleared. -/
theorem resolvedLayout_clear_recorded :
    resolvedLayout (some (((legacySettings.migrate deskReg).recordApply ["desk"] "wp").afterEdit
      "desk" .clearAll laterMutations)) deskInfo =
      (((legacySettings.migrate deskReg).recordApply ["desk"] "wp").afterEdit
        "desk" .clearAll laterMutations).globalLayout := by
  refine (@Settings.resolvedLayout_clear_iff _ deskInfo _ _ rfl (by decide)).2
    (.inr (.inr ⟨_, rfl, .inl (by decide)⟩)) laterMutations fun m hm => ?_
  rcases List.mem_cons.1 hm with rfl | hm
  · exact ⟨fun _ => rfl, fun _ => rfl⟩
  · rw [List.mem_singleton.1 hm]
    trivial

/-- An entry that held nothing but the copied layout is taken away with it, and the legacy entry
it was copied from applies again. -/
theorem not_resolvedLayout_clear : ¬∀ (s : Settings) (info : DisplayInfo) (iid : String)
    (e : LayoutEdit) (ms : List SettingsMutation), info.instanceId = some iid →
      (e.apply ((s.displayPrefs iid).getD default)).LayoutFree →
      (∀ m ∈ ms, m.Unrelated iid info.name) →
      resolvedLayout (some (s.afterEdit iid e ms)) info = (s.afterEdit iid e ms).globalLayout := by
  intro h
  have hcase := h (legacySettings.migrate deskReg) deskInfo "desk" .clearAll [] rfl (by decide)
    (List.forall_mem_nil _)
  exact absurd hcase (by decide)

end Waywallen
