import Waywallen.Playlist.Engine

/-!
# Deactivated displays

Once the rotation of a display has been taken away and nobody activates a playlist on it, the only
way for the engine to own it again is the hotplug watcher, which hears of the display whenever its
layout, its size or its links change. It stays away from the display as long as it finds nothing to
restore: no assignment under the settings key, and no playlist attached to every display.
-/

namespace Waywallen

open TaskPool

/-- The playlist that the call goes on to activate on the display. -/
def EngineCall.activates (d : DisplayId) : EngineCall → Option PlaylistId
  | getPlaylist a | resolveItems a | targets a =>
      if a.displayIds = [] ∨ d ∈ a.displayIds then some a.playlistId else none
  | release e pid | applyWallpaper e pid | insertRotation e pid =>
      if e = d then some pid else none
  | _ => none

/-- The settings key under which the watcher looks for a playlist of the display. -/
def EngineCall.resolves (d : DisplayId) : EngineCall → Option String
  | resolvePid e key => if e = d then some key else none
  | _ => none

namespace PlaylistEngine

open EngineCall

/-- The playlists that are being activated on the display. -/
def activations (p : EnginePool) (d : DisplayId) : List PlaylistId :=
  pending (EngineCall.activates d) p.tasks

/-- Nobody asks for a playlist on the display. -/
def NotActivated (d : DisplayId) : EngineLabel → Prop
  | .start (.playlistActivate displayIds _ _) => displayIds ≠ [] ∧ d ∉ displayIds
  | _ => True

/-- When the watcher looks for a playlist to restore on the display, there is none. -/
def NoneRestored (d : DisplayId) (p : EnginePool) (l : EngineLabel) : Prop :=
  ∀ c ∈ p.executed l, ∀ key ∈ c.resolves d, p.shared.resolvePid key = none

/-- The display is owned, or about to be, with one of the given playlists only. -/
structure OnlyWith (d : DisplayId) (pids : List PlaylistId) (s : PlaylistEngine)
    (cs : List EngineCall) : Prop where
  owned : ∀ pid, s.owned.lookup d = some pid → pid ∈ pids
  calls : ∀ c ∈ cs, ∀ pid ∈ c.activates d, pid ∈ pids

variable {s s' : PlaylistEngine} {c : EngineCall} {rest next : List EngineCall} {d : DisplayId}
  {pids : List PlaylistId}

theorem OnlyWith.goOn (h : OnlyWith d pids s (c :: rest))
    (howned : ∀ pid, s'.owned.lookup d = some pid → pid ∈ pids)
    (hnext : ∀ k ∈ next, ∀ pid ∈ k.activates d, pid ∈ pids) :
    OnlyWith d pids s' (next ++ rest) :=
  ⟨howned, fun k hk => (List.mem_append.1 hk).elim (hnext k) fun hk =>
    h.calls k (List.mem_cons_of_mem _ hk)⟩

/-- No call activates a playlist on the display, except for the one that an activation goes on
with. -/
theorem activates_exec {x : EngineChoice} {o : Outcome PlaylistEngine EngineCall}
    (ho : c.exec x s = some o) (hres : ∀ key ∈ c.resolves d, s.resolvePid key = none)
    {k : EngineCall} (hk : k ∈ o.next) {pid : PlaylistId} (hpid : k.activates d = some pid) :
    c.activates d = some pid := by
  cases c with
  | getPlaylist a | resolveItems a =>
    simp only [EngineCall.exec] at ho
    split at ho
    · obtain rfl := andThen_eq ho
      rw [List.mem_singleton.1 hk] at hpid
      exact hpid
    · obtain rfl := andThen_eq ho
      cases hk
  | targets a =>
    obtain rfl := andThen_eq ho
    obtain hk | hk := List.mem_append.1 hk
    · obtain ⟨e, he, rfl⟩ := List.mem_map.1 hk
      obtain ⟨rfl, hq⟩ := Option.ite_none_right_eq_some.1 hpid
      refine Option.ite_none_right_eq_some.2 ⟨?_, hq⟩
      by_cases hids : a.displayIds = []
      · exact .inl hids
      · rw [if_neg hids] at he
        exact .inr he
    · split at hk
      · rw [List.mem_singleton.1 hk] at hpid
        cases hpid
      · cases hk
  | release e q | applyWallpaper e q =>
    obtain rfl := andThen_eq ho
    rw [List.mem_singleton.1 hk] at hpid
    exact hpid
  | deactivate ids =>
    exfalso
    cases ids with
    | nil =>
      obtain ⟨ks, -, rfl⟩ := inOrder_eq ho
      obtain ⟨e, -, rfl⟩ := List.mem_map.1 hk
      cases hpid
    | cons e ids =>
      obtain rfl := andThen_eq ho
      obtain ⟨e, -, rfl⟩ := List.mem_map.1 hk
      cases hpid
  | deactivateForPlaylist q | rebuildForPlaylist q =>
    obtain ⟨ks, -, rfl⟩ := inOrder_eq ho
    split at hk
    · cases hk
    · rw [List.mem_singleton.1 hk] at hpid
      cases hpid
  | restoreAll | resync =>
    obtain rfl := andThen_eq ho
    obtain ⟨e, -, rfl⟩ := List.mem_map.1 hk
    cases hpid
  | resolvePid e key =>
    simp only [EngineCall.exec] at ho
    split at ho
    · rename_i q hq
      obtain rfl := andThen_eq ho
      -- the watcher asks for the one display it has heard of
      rw [List.mem_singleton.1 hk] at hpid
      obtain ⟨he | he, -⟩ := Option.ite_none_right_eq_some.1 hpid
      · cases he
      · obtain rfl := List.mem_singleton.1 he
        rw [hres key (if_pos rfl)] at hq
        cases hq
    · obtain rfl := andThen_eq ho
      cases hk
  | watch =>
    have pair {a b : EngineCall} (ha : a.activates d = none) (hb : b.activates d = none)
        (hk : k ∈ [a, b]) : EngineCall.watch.activates d = some pid := by
      simp only [List.mem_cons, List.not_mem_nil, or_false] at hk
      obtain rfl | rfl := hk
      · cases ha.symm.trans hpid
      · cases hb.symm.trans hpid
    simp only [EngineCall.exec, receive] at ho
    split at ho
    · obtain rfl := andThen_eq ho
      exact pair rfl rfl hk
    · split at ho
      · cases ho
      · obtain rfl := andThen_eq ho
        exact pair rfl rfl hk
      · obtain rfl := andThen_eq ho
        exact pair rfl rfl hk
      · obtain rfl := andThen_eq ho
        rw [List.mem_singleton.1 hk] at hpid
        cases hpid
  | registerDisplay ident =>
    simp only [EngineCall.exec] at ho
    split at ho
    · obtain rfl := andThen_eq ho
      rw [List.mem_singleton.1 hk] at hpid
      cases hpid
    · split at ho
      · obtain rfl := andThen_eq ho
        obtain rfl | hk := List.mem_cons.1 hk
        · cases hpid
        · rw [List.mem_singleton.1 hk] at hpid
          cases hpid
      · obtain rfl := andThen_eq ho
        rw [List.mem_singleton.1 hk] at hpid
        cases hpid
  | _ =>
    simp only [EngineCall.exec] at ho
    repeat' split at ho
    all_goals
      obtain rfl := andThen_eq ho
      simp only [List.mem_cons, List.not_mem_nil, or_false] at hk
      try cases hk ▸ hpid

/-- Only the end of an activation makes the engine own a display. -/
theorem owned_exec {x : EngineChoice} {o : Outcome PlaylistEngine EngineCall}
    (ho : c.exec x s = some o) {pid : PlaylistId} (hd : o.shared.owned.lookup d = some pid) :
    s.owned.lookup d = some pid ∨ c.activates d = some pid := by
  have erase {e : DisplayId} (h : (s.owned.erase e).lookup d = some pid) :
      s.owned.lookup d = some pid := by
    rw [HashMap.lookup_erase_eq] at h
    split at h
    · cases h
    · exact h
  cases c with
  | insertRotation e q =>
    obtain rfl := andThen_eq ho
    rw [HashMap.lookup_insert_eq] at hd
    split at hd
    · rename_i hde
      exact .inr (by rw [EngineCall.activates, if_pos hde.symm, Option.some_inj.1 hd])
    · exact .inl hd
  | release e q | removeRotation e | dropDisplay e =>
    obtain rfl := andThen_eq ho
    exact .inl (erase hd)
  | deactivate ids =>
    cases ids with
    | nil =>
      obtain ⟨ks, -, rfl⟩ := inOrder_eq ho
      exact .inl hd
    | cons e ids =>
      obtain rfl := andThen_eq ho
      exact .inl hd
  | deactivateForPlaylist q | rebuildForPlaylist q =>
    obtain ⟨ks, -, rfl⟩ := inOrder_eq ho
    exact .inl hd
  | watch =>
    simp only [EngineCall.exec, receive] at ho
    split at ho
    · obtain rfl := andThen_eq ho
      exact .inl hd
    · split at ho
      · cases ho
      all_goals
        obtain rfl := andThen_eq ho
        exact .inl hd
  | _ =>
    simp only [EngineCall.exec] at ho
    repeat' split at ho
    all_goals
      obtain rfl := andThen_eq ho
      exact .inl hd

theorem OnlyWith.exec {x : EngineChoice} {o : Outcome PlaylistEngine EngineCall}
    (h : OnlyWith d pids s (c :: rest)) (ho : c.exec x s = some o)
    (hres : ∀ key ∈ c.resolves d, s.resolvePid key = none) :
    OnlyWith d pids o.shared (o.next ++ rest) :=
  h.goOn
    (fun pid hd => (owned_exec ho hd).elim (h.owned pid) (h.calls c List.mem_cons_self pid))
    fun _ hk pid hpid => h.calls c List.mem_cons_self pid (activates_exec ho hres hk hpid)

theorem OnlyWith.accept {cs : List EngineCall} {q : EngineRequest}
    {a : PlaylistEngine × TaskPool.Task EngineCall} (h : OnlyWith d pids s cs)
    (hq : s.accept q = some a) (hno : NotActivated d (.start q)) :
    OnlyWith d pids a.1 (cs ++ a.2.stack) := by
  have put (ha : a = (s, { stack := q.calls }))
      (hnext : ∀ k ∈ q.calls, k.activates d = none) :
      OnlyWith d pids a.1 (cs ++ a.2.stack) := by
    subst ha
    refine ⟨h.owned, fun k hk pid hpid => ?_⟩
    obtain hk | hk := List.mem_append.1 hk
    · exact h.calls k hk pid hpid
    · rw [hnext k hk] at hpid
      cases hpid
  cases q with
  | playlistActivate displayIds q autoAttach =>
    refine put (Option.some_inj.1 hq).symm fun k hk => ?_
    rw [List.mem_singleton.1 hk]
    exact if_neg fun h => h.elim hno.1 hno.2
  | unregisterDisplay e =>
    obtain ⟨-, ha⟩ := Option.ite_none_right_eq_some.1 hq
    refine put (Option.some_inj.1 ha).symm fun k hk => ?_
    rw [List.mem_singleton.1 hk]
    rfl
  | playlistDeactivate displayIds clear =>
    refine put (Option.some_inj.1 hq).symm fun k hk => ?_
    obtain rfl | hk := List.mem_cons.1 hk
    · rfl
    · obtain ⟨q, -, rfl⟩ := Option.map_eq_some_iff.1 (Option.mem_toList.1 hk)
      rfl
  | playlistDelete q =>
    refine put (Option.some_inj.1 hq).symm fun k hk => ?_
    obtain rfl | hk := List.mem_cons.1 hk
    · rfl
    · rw [List.mem_singleton.1 hk]
      rfl
  | _ =>
    refine put (Option.some_inj.1 hq).symm fun k hk => ?_
    rw [List.mem_singleton.1 hk]
    rfl

theorem owned_act {e : EngineSignal} (hs : act e s = some s') : s'.owned = s.owned := by
  cases e with
  | createPlaylist pid entryIds =>
    obtain ⟨-, hs⟩ := Option.ite_none_left_eq_some.1 hs
    cases hs
    rfl
  | touchPrefs key =>
    obtain ⟨-, hs⟩ := Option.ite_none_left_eq_some.1 hs
    cases hs
    rfl
  | prunePrefs key =>
    obtain ⟨-, hs⟩ := Option.ite_none_right_eq_some.1 hs
    cases hs
    rfl
  | _ =>
    cases hs
    rfl

/-- As long as nobody activates a playlist on the display and the watcher finds none to restore,
the engine owns it with a playlist only if that was being activated on it at the beginning. -/
theorem OnlyWith.run {p p' : EnginePool} {ls : List EngineLabel}
    (hsteady : ∀ t ∈ p.tasks, t.Steady) (h : OnlyWith d pids p.shared (TaskPool.calls p.tasks))
    (hr : Transition.run semantics.step p ls = some p') (hno : ∀ l ∈ ls, NotActivated d l)
    (hnone : Transition.Along semantics.step (NoneRestored d) p ls) :
    OnlyWith d pids p'.shared (TaskPool.calls p'.tasks) := by
  have hstep := steady.preserves (I := OnlyWith d pids)
    (C := fun p l => NotActivated d l ∧ NoneRestored d p l)
    (fun hperm h => ⟨h.owned, fun c hc => h.calls c (hperm.mem_iff.2 hc)⟩)
    (fun p l i x c o hl hC hc h ho => by
      have hspawn : o.spawn = [] := by rw [exec_eq ho]
      rw [hspawn, calls_nil, List.append_nil]
      exact h.exec ho (hC.2 c hc))
    (fun p q s t hC h hq => h.accept hq hC.1)
    fun p e s _ h hs => ⟨fun pid hd => h.owned pid (owned_act hs ▸ hd), h.calls⟩
  exact (Transition.invariant_of_run hstep ⟨hsteady, h⟩
    ((Transition.along_of_forall hno p).and hnone) hr).2

/-- No step interrupts a task, so the tasks of a run are never interrupted. -/
theorem steady_run {ls : List EngineLabel} {p : EnginePool} (h : Run s ls p) :
    ∀ t ∈ p.tasks, t.Steady := by
  have hstep := steady.preserves (I := fun _ _ => True) (C := fun _ _ => True)
    (fun _ _ => trivial) (fun _ _ _ _ _ _ _ _ _ _ _ => trivial) (fun _ _ _ _ _ _ _ => trivial)
    fun _ _ _ _ _ _ => trivial
  refine (Transition.invariant_of_run hstep ⟨fun t ht => ?_, trivial⟩
    (Transition.along_true _ _) h).1
  rw [List.mem_singleton.1 ht]
  exact ⟨rfl, rfl⟩

/-- Once the rotation of a display has been taken away to deactivate it and nobody activates a
playlist on it any more, the engine does not own it again, other than with a playlist that was
being activated just then, provided the watcher finds nothing to restore on it. -/
theorem deactivated_stays {ls₁ ls₂ : List EngineLabel} {l : EngineLabel} {p₁ p p' : EnginePool}
    (h : Run s ls₁ p₁) (hl : p₁.executed l = some (.removeRotation d))
    (hp : semantics.step p₁ l = some p) (hr : Transition.run semantics.step p ls₂ = some p')
    (hno : ∀ l ∈ ls₂, NotActivated d l)
    (hnone : Transition.Along semantics.step (NoneRestored d) p ls₂) :
    ∀ pid, p'.shared.owned.lookup d = some pid → pid ∈ activations p d := by
  have hdown : p.shared.owned.lookup d = none := by
    cases l with
    | run i x =>
      obtain ⟨t, c, rest, o, ht, -, hc, ho, rfl⟩ := Semantics.step_run_eq_some.1 hp
      obtain rfl := Option.some_inj.1 ((Pool.executed_run ht hc).symm.trans hl)
      obtain rfl := andThen_eq ho
      simp [Pool.resume]
    | _ => cases hl
  have hrun : Run s (ls₁ ++ [l]) p := (Transition.run_append_eq_some _).2
    ⟨p₁, h, (Transition.run_singleton _ _ _).trans hp⟩
  have honly : OnlyWith d (activations p d) p.shared (calls p.tasks) := by
    refine ⟨fun pid hd => ?_, fun c hc pid hpid => ?_⟩
    · rw [hdown] at hd
      cases hd
    · exact mem_pending.2 ⟨c, hc, hpid⟩
  exact (honly.run (steady_run hrun) hr hno hnone).owned

/-- A display that rotates a playlist, and the same playlist attached to every display. -/
def attached : PlaylistEngine where
  playlists := (∅ : HashMap PlaylistId (List ℕ)).insert 7 [3]
  entries := [3]
  nextDisplayId := 1
  displays := (∅ : HashMap DisplayId DisplayIdent).insert 1 { name := "HDMI-A-1" }
  assigned := (∅ : HashMap String (Option PlaylistId)).insert "HDMI-A-1" (some 7)
  autoAttach := some 7

/-! ## What the watcher finds, it activates -/

/-- A task that is awake with the given calls to make. -/
def Awake (p : EnginePool) (i : ℕ) (cs : List EngineCall) : Prop :=
  ∃ t, p.tasks[i]? = some t ∧ t.asleep = false ∧ t.stack = cs

theorem Awake.step {p : EnginePool} {i : ℕ} (h : Awake p i (c :: rest)) (s' : PlaylistEngine)
    (next : List EngineCall)
    (ho : c.exec .ok p.shared = some { shared := s', next }) :
    ∃ p', semantics.step p (.run i .ok) = some p' ∧ p'.shared = s' ∧ Awake p' i (next ++ rest) := by
  obtain ⟨t, ht, hawake, hstack⟩ := h
  refine ⟨_, Semantics.step_run_eq_some.2 ⟨t, c, rest, _, ht, hawake, hstack, ho, rfl⟩, rfl,
    { t with stack := next ++ rest }, ?_, hawake, rfl⟩
  obtain ⟨hi, -⟩ := List.getElem?_eq_some_iff.1 ht
  simp [Pool.resume, abortAll, hi]

/-- The watcher takes the playlist that it finds for a display to its rotation. -/
theorem owned_of_resolved {p : EnginePool} {i : ℕ} {key : String} {pid : PlaylistId}
    (h : Awake p i (.resolvePid d key :: rest)) (hpid : p.shared.resolvePid key = some pid)
    (hlisted : p.shared.playlists.containsKey pid = true) (hitems : p.shared.resolve pid ≠ []) :
    ∃ p', Transition.run semantics.step p (List.replicate 7 (.run i .ok)) = some p' ∧
      p'.shared.owned.lookup d = some pid := by
  obtain ⟨p₁, hp₁, hs₁, h₁⟩ := h.step p.shared
    [.getPlaylist { displayIds := [d], playlistId := pid, resume := true }]
    (by rw [exec, hpid]; rfl)
  obtain ⟨p₂, hp₂, hs₂, h₂⟩ := h₁.step p.shared
    [.resolveItems { displayIds := [d], playlistId := pid, resume := true }]
    (by rw [exec, hs₁, if_pos ⟨(by rintro ⟨⟩), hlisted⟩]; rfl)
  obtain ⟨p₃, hp₃, hs₃, h₃⟩ := h₂.step p.shared
    [.targets { displayIds := [d], playlistId := pid, resume := true }]
    (by rw [exec, hs₂, if_pos ⟨(by rintro ⟨⟩), hitems⟩]; rfl)
  obtain ⟨p₄, hp₄, hs₄, h₄⟩ := h₃.step p.shared
    [.release d pid]
    (by rw [hs₃]; rfl)
  obtain ⟨p₅, hp₅, hs₅, h₅⟩ := h₄.step (c := .release d pid)
    { p.shared with owned := p.shared.owned.erase d } [.applyWallpaper d pid]
    (by rw [hs₄]; rfl)
  obtain ⟨p₆, hp₆, hs₆, h₆⟩ := h₅.step (c := .applyWallpaper d pid)
    p₅.shared [.insertRotation d pid] rfl
  obtain ⟨p₇, hp₇, hs₇, -⟩ := h₆.step (c := .insertRotation d pid) _ _ rfl
  refine ⟨p₇, ?_, ?_⟩
  · simp only [List.replicate, Transition.run, hp₁, hp₂, hp₃, hp₄, hp₅, hp₆, hp₇,
      Option.bind_some]
  · rw [hs₇]
    exact AList.lookup_insert _

/-! ## A layout that is changed after the deactivation -/

instance : DecidablePred (NotActivated d)
  | .start (.playlistActivate _ _ _) => inferInstanceAs (Decidable (_ ∧ _))
  | .start (.playlistDeactivate _ _) | .start (.wallpaperApply _) | .start (.playlistDelete _)
  | .start (.playlistSetItems _ _) | .start (.playlistSetMode _) | .start (.registerDisplay _)
  | .start (.unregisterDisplay _) | .start (.updateDisplay _) => .isTrue trivial
  | .run _ _ | .wake _ | .drop _ | .env _ => .isTrue trivial

instance (p : EnginePool) (l : EngineLabel) : Decidable (NoneRestored d p l) :=
  inferInstanceAs (Decidable (∀ c ∈ p.executed l, _))

/-- The watcher restores the playlist of the display, and a request to deactivate it comes in. -/
def deactivates (clearAutoAttach : Option PlaylistId) : List EngineLabel :=
  List.replicate 10 (.run 0 .ok) ++
    [.start (.playlistDeactivate [1] clearAutoAttach), .run 1 .ok]

/-- The rest of the request is handled, and the watcher handles a new layout of the display. -/
def newLayout (requested watched : ℕ) : List EngineLabel :=
  List.replicate requested (.run 1 .ok) ++ [.start (.updateDisplay 1), .run 2 .ok, .run 2 .ok] ++
    List.replicate watched (.run 0 .ok)

theorem fresh_attached : attached.Fresh := ⟨rfl, rfl, rfl, by decide⟩

def detaching : EnginePool :=
  Transition.reached semantics.step (start attached) (deactivates (some 7)) (by decide +kernel)

def detached : EnginePool :=
  Transition.reached semantics.step detaching [.run 1 .ok] (by decide +kernel)

def leftAlone : EnginePool :=
  Transition.reached semantics.step detached (newLayout 3 3) (by decide +kernel)

theorem deactivated_stays_detached : detaching.shared.owned.lookup 1 = some 7 ∧
    leftAlone.shared.owned.lookup 1 = none := by
  refine ⟨by decide, ?_⟩
  have hrun : Run attached (deactivates (some 7)) detaching := Transition.run_reached _ _
  have hstep : semantics.step detaching (.run 1 .ok) = some detached :=
    (Transition.run_singleton _ _ _).symm.trans (Transition.run_reached _ _)
  have hstays := deactivated_stays (d := 1) hrun (by decide) hstep
    (Transition.run_reached _ _ : _ = some leftAlone) (by decide) (by decide)
  have hactivations : activations detached 1 = [] := by decide
  rw [hactivations] at hstays
  exact Option.eq_none_iff_forall_ne_some.2 fun pid hpid => nomatch hstays pid hpid

def deactivating : EnginePool :=
  Transition.reached semantics.step (start attached) (deactivates none) (by decide +kernel)

def deactivated : EnginePool :=
  Transition.reached semantics.step deactivating [.run 1 .ok] (by decide +kernel)

def reactivated : EnginePool :=
  Transition.reached semantics.step deactivated (newLayout 2 9) (by decide +kernel)

theorem not_deactivated_stays : ¬∀ (s : PlaylistEngine) (d : DisplayId)
    (ls₁ ls₂ : List EngineLabel) (l : EngineLabel) (p₁ p p' : EnginePool), s.Fresh →
      Run s ls₁ p₁ → p₁.executed l = some (.removeRotation d) → semantics.step p₁ l = some p →
        Transition.run semantics.step p ls₂ = some p' → (∀ l ∈ ls₂, NotActivated d l) →
          ∀ pid, p'.shared.owned.lookup d = some pid → pid ∈ activations p d := by
  intro h
  have hrun : Run attached (deactivates none) deactivating := Transition.run_reached _ _
  have hstep : semantics.step deactivating (.run 1 .ok) = some deactivated :=
    (Transition.run_singleton _ _ _).symm.trans (Transition.run_reached _ _)
  have howned : reactivated.shared.owned.lookup 1 = some 7 := by decide
  have hmem := h attached 1 _ (newLayout 2 9) _ _ _ reactivated fresh_attached hrun
    (by decide) hstep (Transition.run_reached _ _) (by decide) 7 howned
  have hactivations : activations deactivated 1 = [] := by decide
  rw [hactivations] at hmem
  cases hmem

end PlaylistEngine

end Waywallen
