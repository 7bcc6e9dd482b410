import Waywallen.Playlist.Engine

/-!
# Owned displays and saved assignments

What an activation or a deactivation has still to do for a display, and what the watcher has still
to do about it, can be read off the pending calls and the events that have not been received. As
long as no step acts on what has changed since it was looked up, that accounts for every difference
between the displays the engine owns, those that are registered and the assignments saved.
-/

namespace Waywallen

open TaskPool

/-- An event that has not been received yet stands for the call that sent it. -/
def HotplugEvent.emission : HotplugEvent → Option EngineCall
  | displayUpsert d ident => some (.emitUpsert d ident)
  | displayRemoved d => some (.emitRemoved d)
  | other => none

namespace EngineCall

/-- The display that the watcher is to drop because it is gone. -/
def removed : EngineCall → Option DisplayId
  | emitRemoved d | dropDisplay d => some d
  | _ => none

/-- The display that loses its rotation. -/
def leaves : EngineCall → Option DisplayId
  | emitRemoved d | dropDisplay d | removeRotation d | release d _ => some d
  | _ => none

/-- The display for which an assignment will be saved. -/
def settles : EngineCall → Option DisplayId
  | release d _ | applyWallpaper d _ | insertRotation d _ | removeRotation d
  | persistAssignment d _ | saveAssignment d _ _ => some d
  | _ => none

/-- The watcher will look for an assignment of the display unless it is owned. -/
def announces (d : DisplayId) : EngineCall → Bool
  | restoreAll | resync => true
  | snapshotDisplay e | emitUpsert e _ | checkOwned e _ | resolvePid e _ => e = d
  | _ => false

/-- The watcher looks up the playlist that it restores on the display. -/
def restores (d : DisplayId) (pid : PlaylistId) : EngineCall → Bool
  | getPlaylist a | resolveItems a | targets a =>
      a.resume ∧ a.displayIds = [d] ∧ a.playlistId = pid
  | _ => false

/-- Where nothing is done about the display yet, the call leads to what is saved for it. -/
def awaits (d : DisplayId) (pid : Option PlaylistId) (c : EngineCall) : Prop :=
  c.announces d = true ∨ ∃ p ∈ pid, c.restores d p = true

/-- The display that was registered when the call was made. -/
def names : EngineCall → Option DisplayId
  | unregisterDisplay d | emitRemoved d | dropDisplay d | saveAssignment d _ _ | emitUpsert d _
  | checkOwned d _ | resolvePid d _ => some d
  | _ => none

/-- A display together with its settings key, as read earlier. -/
def keyed : EngineCall → Option (DisplayId × String)
  | saveAssignment d key _ | checkOwned d key | resolvePid d key => some (d, key)
  | emitUpsert d ident => some (d, ident.settingsKey)
  | _ => none

theorem names_of_removed {c : EngineCall} {d : DisplayId} (h : c.removed = some d) :
    c.names = some d := by
  cases c <;> first | exact h | cases h

theorem names_of_keyed {c : EngineCall} {e : DisplayId × String} (h : c.keyed = some e) :
    c.names = some e.1 := by
  cases c <;> cases h <;> rfl

theorem not_awaits {c : EngineCall} {d : DisplayId} {pid : Option PlaylistId}
    (hannounces : c.announces d ≠ true := by rintro ⟨⟩)
    (hrestores : ∀ p, c.restores d p ≠ true := by rintro _ ⟨⟩) :
    ¬c.awaits d pid := by
  rintro (h | ⟨p, -, h⟩)
  · exact hannounces h
  · exact hrestores p h

theorem settles_or_names_of_leaves {c : EngineCall} {d : DisplayId} (h : c.leaves = some d) :
    c.settles = some d ∨ c.names = some d := by
  cases c <;> cases h <;> first | exact .inl rfl | exact .inr rfl

end EngineCall

namespace PlaylistEngine

open EngineCall

section

variable (ts : List EngineCall) (d : DisplayId)

def Leaving : Prop := ∃ c ∈ ts, c.leaves = some d

def Settling : Prop := ∃ c ∈ ts, c.settles = some d

def Awaited (pid : Option PlaylistId) : Prop := ∃ c ∈ ts, c.awaits d pid

end

variable (s : PlaylistEngine)

/-- The pending calls, the events to be received counting as the calls that sent them. -/
def todo (cs : List EngineCall) : List EngineCall :=
  s.events.filterMap HotplugEvent.emission ++ cs

/-- The display is owned with the given playlist, or what is pending will see to it. -/
def InHand (ts : List EngineCall) (d : DisplayId) (pid : Option PlaylistId) : Prop :=
  pid = s.owned.lookup d ∨ Settling ts d ∨ s.owned.lookup d = none ∧ Awaited ts d pid

/-- Every registered display with the settings key takes the assignment. -/
def Fits (ts : List EngineCall) (key : String) (pid : Option PlaylistId) : Prop :=
  ∀ d ∈ s.displays.keys, ∀ ident ∈ s.displays.lookup d, ident.settingsKey = key →
    s.InHand ts d pid

/-- A lookup that fails is not one for the assignment of a display that is not owned. -/
def Restorable (ts : List EngineCall) (a : Activation) : Prop :=
  a.resume = true → ∀ d ∈ a.displayIds, ∀ ident ∈ s.displays.lookup d,
    s.saved ident.settingsKey = some a.playlistId → s.owned.lookup d = none →
      Settling ts d ∨ Awaited ts d (some a.playlistId)

/-- What the call found out earlier is still so, or something pending will make up for it. -/
def UpToDate (ts : List EngineCall) (x : EngineChoice) : EngineCall → Prop
  | .insertRotation d pid =>
      (s.displays.containsKey d = true ∧ s.playlists.containsKey pid = true) ∨ Leaving ts d
  | .deletePlaylist pid => x = .dbError ∨ ∀ d ∈ s.ownersOf pid, Leaving ts d
  | .saveAssignment _ key pid => s.Fits ts key pid
  | .insertLegacy iid legacy => s.assigned.containsKey iid = true ∨ s.Fits ts iid legacy
  | .getPlaylist a =>
      x ≠ .dbError ∧ s.playlists.containsKey a.playlistId = true ∨ s.Restorable ts a
  | .resolveItems a => x ≠ .dbError ∧ s.resolve a.playlistId ≠ [] ∨ s.Restorable ts a
  | _ => True

variable {s} {s' : PlaylistEngine} {c : EngineCall} {ts ts' next cs : List EngineCall}
  {d : DisplayId} {key : String} {pid : Option PlaylistId}

instance : Decidable (awaits d pid c) := inferInstanceAs (Decidable (_ ∨ _))

instance : Decidable (Leaving ts d) := inferInstanceAs (Decidable (∃ c ∈ ts, _))

instance : Decidable (Settling ts d) := inferInstanceAs (Decidable (∃ c ∈ ts, _))

instance : Decidable (Awaited ts d pid) := inferInstanceAs (Decidable (∃ c ∈ ts, _))

instance : Decidable (s.InHand ts d pid) := inferInstanceAs (Decidable (_ ∨ _ ∨ _))

instance : Decidable (s.Fits ts key pid) := inferInstanceAs (Decidable (∀ d ∈ s.displays.keys, _))

instance {a : Activation} : Decidable (s.Restorable ts a) :=
  inferInstanceAs (Decidable (_ → ∀ d ∈ a.displayIds, _))

instance {x : EngineChoice} : Decidable (s.UpToDate ts x c) := by
  cases c <;> unfold UpToDate <;> infer_instance

/-- What pending calls know about displays is so, and no display id is used twice. -/
structure Named (s : PlaylistEngine) (ts : List EngineCall) : Prop where
  ids : ∀ d ident, s.displays.lookup d = some ident → d ≤ s.nextDisplayId
  known : ∀ c ∈ ts, ∀ d ∈ c.names, d ≤ s.nextDisplayId
  gone : ∀ c ∈ ts, ∀ d ∈ c.removed, s.displays.lookup d = none
  keyed : ∀ c ∈ ts, ∀ e ∈ c.keyed, ∀ ident, s.displays.lookup e.1 = some ident →
    e.2 = ident.settingsKey

/-- Where the engine, the router, the database and the settings differ, something is pending. -/
structure Agreeing (s : PlaylistEngine) (ts : List EngineCall) : Prop extends Named s ts where
  owned : ∀ d pid, s.owned.lookup d = some pid →
    (s.displays.containsKey d = true ∧ s.playlists.containsKey pid = true) ∨ Leaving ts d
  saved : ∀ d ident, s.displays.lookup d = some ident → s.InHand ts d (s.saved ident.settingsKey)

/-! ## What is pending -/

theorem mem_todo_cons {k : EngineCall} : k ∈ s.todo (c :: cs) ↔ k = c ∨ k ∈ s.todo cs := by
  simp only [todo, List.mem_append, List.mem_cons]
  exact or_left_comm

theorem mem_todo_append {k : EngineCall} : k ∈ s.todo (next ++ cs) ↔ k ∈ next ∨ k ∈ s.todo cs := by
  simp only [todo, List.mem_append]
  exact or_left_comm

theorem mem_todo_emit {e : HotplugEvent} {k : EngineCall} (he : e.emission = some c) :
    k ∈ (s.emit e).todo cs ↔ k ∈ c :: s.todo cs := by
  simp only [todo, PlaylistEngine.emit, List.filterMap_append, List.filterMap_cons_some he,
    List.filterMap_nil, List.mem_append, List.mem_cons, List.not_mem_nil, or_false]
  rw [or_comm (b := k = c), or_assoc]

theorem InHand.mono (h : s.InHand ts d pid) (hts : ∀ k ∈ ts, k ∈ ts') : s.InHand ts' d pid := by
  obtain h | ⟨k, hk, h⟩ | ⟨hd, k, hk, h⟩ := h
  · exact .inl h
  · exact .inr (.inl ⟨k, hts k hk, h⟩)
  · exact .inr (.inr ⟨hd, k, hts k hk, h⟩)

theorem InHand.tail (h : s.InHand (c :: ts) d pid) (hsettles : c.settles ≠ some d)
    (hawaits : ¬c.awaits d pid) : s.InHand ts d pid := by
  obtain h | ⟨k, hk, h⟩ | ⟨hd, k, hk, h⟩ := h
  · exact .inl h
  · obtain rfl | hk := List.mem_cons.1 hk
    · exact absurd h hsettles
    · exact .inr (.inl ⟨k, hk, h⟩)
  · obtain rfl | hk := List.mem_cons.1 hk
    · exact absurd h hawaits
    · exact .inr (.inr ⟨hd, k, hk, h⟩)

theorem Leaving.tail (h : Leaving (c :: ts) d) (hc : c.leaves ≠ some d) : Leaving ts d := by
  obtain ⟨k, hk, h⟩ := h
  obtain rfl | hk := List.mem_cons.1 hk
  · exact absurd h hc
  · exact ⟨k, hk, h⟩

theorem Leaving.mono (h : Leaving ts d) (hts : ∀ k ∈ ts, k ∈ ts') : Leaving ts' d := by
  obtain ⟨k, hk, h⟩ := h
  exact ⟨k, hts k hk, h⟩

theorem InHand.frame (h : s.InHand ts d pid) (howned : s'.owned.lookup d = s.owned.lookup d) :
    s'.InHand ts d pid := by
  rw [InHand, howned]
  exact h

theorem Named.sub (h : Named s ts) (hts : ∀ k ∈ ts', k ∈ ts) : Named s ts' where
  ids := h.ids
  known c hc := h.known c (hts c hc)
  gone c hc := h.gone c (hts c hc)
  keyed c hc := h.keyed c (hts c hc)

theorem Named.tail (h : Named s (c :: ts)) : Named s ts := h.sub fun _ => List.mem_cons_of_mem c

theorem Named.append (h : Named s ts)
    (hknown : ∀ k ∈ next, ∀ d ∈ k.names, d ≤ s.nextDisplayId)
    (hgone : ∀ k ∈ next, ∀ d ∈ k.removed, s.displays.lookup d = none)
    (hkeyed : ∀ k ∈ next, ∀ e ∈ k.keyed, ∀ ident, s.displays.lookup e.1 = some ident →
      e.2 = ident.settingsKey) : Named s (next ++ ts) where
  ids := h.ids
  known k hk d hd := (List.mem_append.1 hk).elim (hknown k · d hd) (h.known k · d hd)
  gone k hk d hd := (List.mem_append.1 hk).elim (hgone k · d hd) (h.gone k · d hd)
  keyed k hk e he := (List.mem_append.1 hk).elim (hkeyed k · e he) (h.keyed k · e he)

theorem Named.plain (h : Named s ts)
    (hnext : ∀ k ∈ next, k.names = none ∧ k.removed = none ∧ k.keyed = none) :
    Named s (next ++ ts) := by
  refine h.append (fun k hk d hd => ?_) (fun k hk d hd => ?_) fun k hk e he => ?_
  · rw [(hnext k hk).1] at hd
    cases hd
  · rw [(hnext k hk).2.1] at hd
    cases hd
  · rw [(hnext k hk).2.2] at he
    cases he

/-- Calls for displays that have just been looked up. -/
theorem Named.reads (h : Named s ts)
    (hnext : ∀ k ∈ next, ∃ d ident, s.displays.lookup d = some ident ∧ k.names = some d ∧
      k.removed = none ∧ k.keyed = some (d, ident.settingsKey)) : Named s (next ++ ts) := by
  refine h.append (fun k hk e he => ?_) (fun k hk e he => ?_) fun k hk e he i hi => ?_
  all_goals
    obtain ⟨d, ident, hd, hnames, hremoved, hkeyed⟩ := hnext k hk
  · obtain rfl := Option.some_inj.1 (hnames.symm.trans he)
    exact h.ids _ ident hd
  · rw [hremoved] at he
    cases he
  · obtain rfl := Option.some_inj.1 (hkeyed.symm.trans he)
    rw [Option.some_inj.1 (hd.symm.trans hi)]

/-- Calls that carry on what the call before them knew. -/
theorem Named.carry (h : Named s (c :: ts))
    (hnext : ∀ k ∈ next, (k.names = none ∨ k.names = c.names) ∧
      (k.removed = none ∨ k.removed = c.removed) ∧ (k.keyed = none ∨ k.keyed = c.keyed)) :
    Named s (next ++ ts) := by
  refine h.tail.append (fun k hk e he => ?_) (fun k hk e he => ?_) fun k hk e he => ?_
  all_goals
    obtain ⟨hnames, hremoved, hkeyed⟩ := hnext k hk
  · obtain hk | hk := hnames <;> rw [hk] at he
    · cases he
    · exact h.known c List.mem_cons_self e he
  · obtain hk | hk := hremoved <;> rw [hk] at he
    · cases he
    · exact h.gone c List.mem_cons_self e he
  · obtain hk | hk := hkeyed <;> rw [hk] at he
    · cases he
    · exact h.keyed c List.mem_cons_self e he

theorem Named.frame (h : Named s ts) (hdisplays : s'.displays = s.displays)
    (hid : s'.nextDisplayId = s.nextDisplayId) : Named s' ts where
  ids d ident hd := hid ▸ h.ids d ident (hdisplays ▸ hd)
  known k hk d hd := hid ▸ h.known k hk d hd
  gone k hk d hd := hdisplays ▸ h.gone k hk d hd
  keyed k hk e he := hdisplays ▸ h.keyed k hk e he

theorem Agreeing.frame (h : Agreeing s ts) (hdisplays : s'.displays = s.displays)
    (hid : s'.nextDisplayId = s.nextDisplayId) (howned : s'.owned = s.owned)
    (hplaylists : ∀ pid, s.playlists.containsKey pid = true → s'.playlists.containsKey pid = true)
    (hassigned : ∀ key, s'.saved key = s.saved key) : Agreeing s' ts where
  toNamed := h.toNamed.frame hdisplays hid
  owned d pid hd := by
    rw [howned] at hd
    rw [hdisplays]
    exact (h.owned d pid hd).imp_left fun ⟨hreg, hpl⟩ => ⟨hreg, hplaylists pid hpl⟩
  saved d ident hd := by
    rw [hdisplays] at hd
    rw [hassigned]
    exact (h.saved d ident hd).frame (by rw [howned])

/-- What counts is which calls are pending, not how often or in which order. -/
theorem Agreeing.congr (h : Agreeing s ts) (hts : ∀ k, k ∈ ts ↔ k ∈ ts') : Agreeing s ts' where
  toNamed := h.toNamed.sub fun k hk => (hts k).2 hk
  owned d pid hd := (h.owned d pid hd).imp_right fun ⟨k, hk, hl⟩ => ⟨k, (hts k).1 hk, hl⟩
  saved d ident hd := (h.saved d ident hd).mono fun k hk => (hts k).1 hk

/-! ## What a call preserves -/

/-- A call that changes nothing but the playlists that exist, and goes on with what it stands
for. -/
theorem Agreeing.goOn (h : Agreeing s (c :: ts)) (hdisplays : s'.displays = s.displays)
    (hid : s'.nextDisplayId = s.nextDisplayId) (howned : s'.owned = s.owned)
    (hplaylists : ∀ pid, s.playlists.containsKey pid = true → s'.playlists.containsKey pid = true)
    (hassigned : s'.assigned = s.assigned)
    (hnamed : Named s (next ++ ts))
    (hleaves : ∀ d, c.leaves = some d → Leaving next d)
    (hsettles : ∀ d ident, s.displays.lookup d = some ident → c.settles = some d →
      Settling next d)
    (hawaits : ∀ d ident, s.displays.lookup d = some ident → s.owned.lookup d = none →
      c.awaits d (s.saved ident.settingsKey) →
        s.InHand (next ++ ts) d (s.saved ident.settingsKey)) :
    Agreeing s' (next ++ ts) where
  toNamed := hnamed.frame hdisplays hid
  owned d pid hd := by
    rw [howned] at hd
    rw [hdisplays]
    obtain ⟨hreg, hpl⟩ | ⟨k, hk, hl⟩ := h.owned d pid hd
    · exact .inl ⟨hreg, hplaylists pid hpl⟩
    · obtain rfl | hk := List.mem_cons.1 hk
      · obtain ⟨k, hk, hl⟩ := hleaves d hl
        exact .inr ⟨k, List.mem_append_left _ hk, hl⟩
      · exact .inr ⟨k, List.mem_append_right _ hk, hl⟩
  saved d ident hd := by
    rw [hdisplays] at hd
    rw [PlaylistEngine.saved, hassigned]
    suffices hin : s.InHand (next ++ ts) d (s.saved ident.settingsKey) from
      hin.frame (by rw [howned])
    obtain hs | ⟨k, hk, hl⟩ | ⟨hnone, k, hk, hl⟩ := h.saved d ident hd
    · exact .inl hs
    · obtain rfl | hk := List.mem_cons.1 hk
      · obtain ⟨k, hk, hl⟩ := hsettles d ident hd hl
        exact .inr (.inl ⟨k, List.mem_append_left _ hk, hl⟩)
      · exact .inr (.inl ⟨k, List.mem_append_right _ hk, hl⟩)
    · obtain rfl | hk := List.mem_cons.1 hk
      · exact hawaits d ident hd hnone hl
      · exact .inr (.inr ⟨hnone, k, List.mem_append_right _ hk, hl⟩)

/-- A call that takes the rotation of a display out of the map. -/
theorem Agreeing.drop (h : Agreeing s (c :: ts)) (hc : c.leaves = some d)
    (hsettles : ∀ e, c.settles = some e → e = d) (hawaits : ∀ e v, ¬c.awaits e v)
    (hnamed : Named s (next ++ ts))
    (hnext : ∀ ident, s.displays.lookup d = some ident → Settling next d) :
    Agreeing { s with owned := s.owned.erase d } (next ++ ts) where
  toNamed := hnamed.frame rfl rfl
  owned e pid he := by
    rw [HashMap.lookup_erase_eq] at he
    split at he
    · cases he
    · rename_i hne
      refine (h.owned e pid he).imp_right fun hl => (hl.tail ?_).mono fun _ =>
        List.mem_append_right _
      rw [hc]
      exact fun heq => hne (Option.some_inj.1 heq).symm
  saved e ident he := by
    by_cases hed : e = d
    · subst hed
      obtain ⟨k, hk, hl⟩ := hnext ident he
      exact .inr (.inl ⟨k, List.mem_append_left _ hk, hl⟩)
    · have hin := (h.saved e ident he).tail (fun hl => hed (hsettles e hl)) (hawaits e _)
      exact (hin.mono fun _ => List.mem_append_right _).frame
        (by rw [HashMap.lookup_erase_eq, if_neg hed])

theorem Agreeing.insertRotation {pid : PlaylistId}
    (h : Agreeing s (.insertRotation d pid :: ts))
    (hin : (s.displays.containsKey d = true ∧ s.playlists.containsKey pid = true) ∨ Leaving ts d) :
    Agreeing { s with owned := s.owned.insert d pid }
      (.persistAssignment d (some pid) :: ts) where
  toNamed := by
    have hnamed : Named s ([.persistAssignment d (some pid)] ++ ts) := by
      refine h.toNamed.tail.plain fun k hk => ?_
      cases List.mem_singleton.1 hk
      exact ⟨rfl, rfl, rfl⟩
    exact hnamed.frame rfl rfl
  owned e q he := by
    rw [HashMap.lookup_insert_eq] at he
    split at he
    · rename_i hed
      cases he
      subst hed
      exact hin.imp_right fun ⟨k, hk, hl⟩ => ⟨k, List.mem_cons_of_mem _ hk, hl⟩
    · exact (h.owned e q he).imp_right fun hl => (hl.tail (by rintro ⟨⟩)).mono fun _ =>
        List.mem_cons_of_mem _
  saved e ident he := by
    by_cases hed : e = d
    · subst hed
      exact .inr (.inl ⟨_, List.mem_cons_self, rfl⟩)
    · have hin := (h.saved e ident he).tail (fun hl => hed (Option.some_inj.1 hl).symm)
        not_awaits
      exact (hin.mono fun _ => List.mem_cons_of_mem _).frame
        (by rw [HashMap.lookup_insert_eq, if_neg hed])

theorem mem_ownersOf {pid : PlaylistId} : d ∈ s.ownersOf pid ↔ s.owned.lookup d = some pid := by
  rw [ownersOf, List.mem_filter, decide_eq_true_iff]
  exact and_iff_right_of_imp fun h => (HashMap.mem_keys_iff _ _).2 ⟨_, h⟩

theorem Agreeing.deletePlaylist {pid : PlaylistId} (h : Agreeing s (.deletePlaylist pid :: ts))
    (hin : ∀ d ∈ s.ownersOf pid, Leaving ts d) :
    Agreeing { s with playlists := s.playlists.erase pid } ts where
  toNamed := h.toNamed.tail.frame rfl rfl
  owned d q hd := by
    by_cases hq : q = pid
    · exact .inr (hin d (mem_ownersOf.2 (hq ▸ hd)))
    · refine (h.owned d q hd).imp (fun ⟨hreg, hpl⟩ => ⟨hreg, ?_⟩) fun hl => hl.tail (by rintro ⟨⟩)
      rw [HashMap.containsKey_erase, hpl, decide_eq_true hq]
      rfl
  saved d ident hd := (h.saved d ident hd).tail (by rintro ⟨⟩) not_awaits

/-- A call that saves an assignment which fits every display with the key. -/
theorem Agreeing.save (h : Agreeing s (c :: ts)) (hfits : s.Fits ts key pid)
    (hleaves : c.leaves = none) (hawaits : ∀ e v, ¬c.awaits e v)
    (hsettles : ∀ d ident, s.displays.lookup d = some ident → c.settles = some d →
      ident.settingsKey = key) :
    Agreeing { s with assigned := s.assigned.insert key pid } ts where
  toNamed := h.toNamed.tail.frame rfl rfl
  owned d q hd := by
    refine (h.owned d q hd).imp_right fun hl => hl.tail ?_
    rw [hleaves]
    rintro ⟨⟩
  saved d ident hd := by
    rw [PlaylistEngine.saved, HashMap.lookup_insert_eq]
    split
    · rename_i hkey
      exact hfits d ((HashMap.mem_keys_iff _ _).2 ⟨_, hd⟩) ident hd hkey
    · rename_i hkey
      exact (h.saved d ident hd).tail (fun hl => hkey (hsettles d ident hd hl)) (hawaits d _)

/-- A new display is announced; should it be owned already, its rotation is about to be given
up. -/
theorem Agreeing.addDisplay {ident : DisplayIdent} (h : Agreeing s (.addDisplay ident :: ts)) :
    Agreeing { s with
        nextDisplayId := s.nextDisplayId + 1
        displays := s.displays.insert (s.nextDisplayId + 1) ident }
      (.snapshotDisplay (s.nextDisplayId + 1) :: ts) where
  ids d i hd := by
    rw [HashMap.lookup_insert_eq] at hd
    split at hd
    · exact Nat.le_of_eq ‹_›
    · exact Nat.le_succ_of_le (h.ids d i hd)
  known k hk d hd := by
    obtain rfl | hk := List.mem_cons.1 hk
    · cases hd
    · exact Nat.le_succ_of_le (h.known k (List.mem_cons_of_mem _ hk) d hd)
  gone k hk d hd := by
    obtain rfl | hk := List.mem_cons.1 hk
    · cases hd
    · have hmem := List.mem_cons_of_mem (EngineCall.addDisplay ident) hk
      have hle : d ≤ s.nextDisplayId := h.known k hmem d (names_of_removed hd)
      rw [HashMap.lookup_insert_eq, if_neg fun heq => absurd (heq ▸ hle) (Nat.not_succ_le_self _)]
      exact h.gone k hmem d hd
  keyed k hk e he i hi := by
    obtain rfl | hk := List.mem_cons.1 hk
    · cases he
    · have hmem := List.mem_cons_of_mem (EngineCall.addDisplay ident) hk
      have hle : e.1 ≤ s.nextDisplayId := h.known k hmem e.1 (names_of_keyed he)
      rw [HashMap.lookup_insert_eq,
        if_neg fun heq => absurd (heq ▸ hle) (Nat.not_succ_le_self _)] at hi
      exact h.keyed k hmem e he i hi
  owned d pid hd := by
    refine (h.owned d pid hd).imp (fun ⟨hreg, hpl⟩ => ⟨?_, hpl⟩) fun hl =>
      (hl.tail (by rintro ⟨⟩)).mono fun _ => List.mem_cons_of_mem _
    rw [HashMap.containsKey_insert, hreg, Bool.or_true]
  saved d i hd := by
    by_cases hnew : d = s.nextDisplayId + 1
    · subst hnew
      cases hown : s.owned.lookup (s.nextDisplayId + 1) with
      | none => exact .inr (.inr ⟨hown, _, List.mem_cons_self, .inl (decide_eq_true rfl)⟩)
      | some pid =>
        have hfresh : s.displays.lookup (s.nextDisplayId + 1) = none := by
          rw [Option.eq_none_iff_forall_ne_some]
          intro i hi
          exact absurd (h.ids _ i hi) (Nat.not_succ_le_self _)
        obtain ⟨hreg, -⟩ | hl := h.owned _ pid hown
        · rw [HashMap.containsKey, hfresh] at hreg
          cases hreg
        · obtain ⟨k, hk, hl⟩ := hl.tail (by rintro ⟨⟩)
          refine .inr (.inl ⟨k, List.mem_cons_of_mem _ hk, ?_⟩)
          exact (settles_or_names_of_leaves hl).resolve_right fun hn =>
            absurd (h.known k (List.mem_cons_of_mem _ hk) _ hn) (Nat.not_succ_le_self _)
    · rw [HashMap.lookup_insert_eq, if_neg hnew] at hd
      exact ((h.saved d i hd).tail (by rintro ⟨⟩) not_awaits).mono fun _ =>
        List.mem_cons_of_mem _

theorem Agreeing.unregisterDisplay (h : Agreeing s (.unregisterDisplay d :: ts)) :
    Agreeing { s with displays := s.displays.erase d } (.emitRemoved d :: ts) where
  ids e i he := by
    rw [HashMap.lookup_erase_eq] at he
    split at he
    · cases he
    · exact h.ids e i he
  known k hk e he := by
    obtain rfl | hk := List.mem_cons.1 hk
    · cases he
      exact h.known _ List.mem_cons_self d rfl
    · exact h.known k (List.mem_cons_of_mem _ hk) e he
  gone k hk e he := by
    rw [HashMap.lookup_erase_eq]
    obtain rfl | hk := List.mem_cons.1 hk
    · cases he
      rw [if_pos rfl]
    · rw [h.gone k (List.mem_cons_of_mem _ hk) e he, ite_self]
  keyed k hk e he i hi := by
    rw [HashMap.lookup_erase_eq] at hi
    split at hi
    · cases hi
    · obtain rfl | hk := List.mem_cons.1 hk
      · cases he
      · exact h.keyed k (List.mem_cons_of_mem _ hk) e he i hi
  owned e pid he := by
    by_cases hed : e = d
    · subst hed
      exact .inr ⟨_, List.mem_cons_self, rfl⟩
    · refine (h.owned e pid he).imp (fun ⟨hreg, hpl⟩ => ⟨?_, hpl⟩) fun hl =>
        (hl.tail (by rintro ⟨⟩)).mono fun _ => List.mem_cons_of_mem _
      rw [HashMap.containsKey_erase, hreg, decide_eq_true hed]
      rfl
  saved e i he := by
    rw [HashMap.lookup_erase_eq] at he
    split at he
    · cases he
    · exact ((h.saved e i he).tail (by rintro ⟨⟩) not_awaits).mono fun _ =>
        List.mem_cons_of_mem _

/-- A call that has nothing to do with the assignment of a display. -/
theorem Agreeing.idle (h : Agreeing s (c :: ts)) (hdisplays : s'.displays = s.displays)
    (hid : s'.nextDisplayId = s.nextDisplayId) (howned : s'.owned = s.owned)
    (hplaylists : ∀ pid, s.playlists.containsKey pid = true → s'.playlists.containsKey pid = true)
    (hassigned : s'.assigned = s.assigned)
    (hnext : ∀ k ∈ next, k.names = none ∧ k.removed = none ∧ k.keyed = none)
    (hleaves : c.leaves = none) (hsettles : c.settles = none)
    (hawaits : ∀ d v, ¬c.awaits d v) : Agreeing s' (next ++ ts) := by
  refine h.goOn hdisplays hid howned hplaylists hassigned (h.toNamed.tail.plain hnext) ?_ ?_ ?_
  · intro d hd
    rw [hleaves] at hd
    cases hd
  · intro d ident _ hd
    rw [hsettles] at hd
    cases hd
  · intro d ident _ _ hd
    exact absurd hd (hawaits d _)

section Exec

variable {x : EngineChoice} {o : Outcome PlaylistEngine EngineCall} {a : Activation}

/-- The lookups of an activation: a success leads on to the next, a failure gives up. -/
theorem Agreeing.lookUp {k : EngineCall} {b : Prop} [Decidable b] (h : Agreeing s (c :: ts))
    (ho : (if b then s.andThen [k] else s.done) = some o) (hin : b ∨ s.Restorable ts a)
    (hplain : k.names = none ∧ k.removed = none ∧ k.keyed = none)
    (hleaves : c.leaves = none) (hsettles : c.settles = none)
    (hannounces : ∀ d, c.announces d = false)
    (hc : ∀ d p, c.restores d p = true → a.resume = true ∧ a.displayIds = [d] ∧ a.playlistId = p)
    (hk : ∀ d p, c.restores d p = true → k.restores d p = true ∨ k.settles = some d) :
    o.shared = s ∧ Agreeing s (o.next ++ ts) := by
  have hnone {d : DisplayId} {P : Prop} (hd : c.leaves = some d ∨ c.settles = some d) : P := by
    rw [hleaves, hsettles] at hd
    rcases hd with hd | hd <;> cases hd
  split at ho
  · obtain rfl := andThen_eq ho
    refine ⟨rfl, h.goOn rfl rfl rfl (fun _ => id) rfl (h.toNamed.tail.plain ?_)
      (fun d hd => hnone (.inl hd)) (fun d _ _ hd => hnone (.inr hd)) fun d ident _ hown hd => ?_⟩
    · intro k' hk'
      rw [List.mem_singleton.1 hk']
      exact hplain
    · obtain hd | ⟨p, hp, hd⟩ := hd
      · rw [hannounces] at hd
        cases hd
      · obtain hd | hd := hk d p hd
        · exact .inr (.inr ⟨hown, k, List.mem_cons_self, .inr ⟨p, hp, hd⟩⟩)
        · exact .inr (.inl ⟨k, List.mem_cons_self, hd⟩)
  · rename_i hb
    obtain rfl := done_eq ho
    refine ⟨rfl, h.goOn rfl rfl rfl (fun _ => id) rfl h.toNamed.tail
      (fun d hd => hnone (.inl hd)) (fun d _ _ hd => hnone (.inr hd)) fun d ident hreg hown hd => ?_⟩
    obtain hd | ⟨p, hp, hd⟩ := hd
    · rw [hannounces] at hd
      cases hd
    · obtain ⟨hres, hids, rfl⟩ := hc d p hd
      rw [Option.mem_def.1 hp]
      obtain hset | haw := (hin.resolve_left hb) hres d (hids ▸ List.mem_singleton_self d) ident hreg
        hp hown
      · exact .inr (.inl hset)
      · exact .inr (.inr ⟨hown, haw⟩)

theorem Agreeing.emit {e : HotplugEvent} {rest : List EngineCall}
    (h : Agreeing s (c :: s.todo rest)) (he : e.emission = some c) :
    Agreeing (s.emit e) ((s.emit e).todo rest) where
  toNamed := (h.toNamed.sub fun _ => (mem_todo_emit he).1).frame rfl rfl
  owned d pid hd := (h.owned d pid hd).imp_right fun hl => hl.mono fun _ => (mem_todo_emit he).2
  saved d ident hd := ((h.saved d ident hd).mono fun _ => (mem_todo_emit he).2).frame rfl

/-- The watcher takes an event out of the queue. -/
theorem Agreeing.received {e : HotplugEvent} {k : EngineCall} {events : List HotplugEvent}
    {rest : List EngineCall} (h : Agreeing s (.watch :: s.todo rest)) (hev : s.events = e :: events)
    (he : e.emission = some c)
    (hnext : Agreeing s (c :: .watch :: todo { s with events } rest) →
      Agreeing { s with events } ([k] ++ (.watch :: todo { s with events } rest))) :
    Agreeing { s with events } (todo { s with events } ([k, .watch] ++ rest)) := by
  refine (hnext (h.congr fun k => ?_)).congr fun k => ?_
  · rw [todo, hev, List.filterMap_cons_some he, todo, List.cons_append, List.mem_cons,
      List.mem_cons, List.mem_cons, List.mem_cons]
    exact or_left_comm
  · rw [mem_todo_append]
    simp only [List.mem_append, List.mem_cons, List.not_mem_nil, or_false, or_assoc]

end Exec

end PlaylistEngine

end Waywallen
