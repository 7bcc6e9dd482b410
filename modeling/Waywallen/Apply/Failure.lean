import Waywallen.Apply.Paths

/-!
# Applies that fail

An apply that ends with an error has taken some of its steps. Those that stop renderers, take
displays away from playlists or relink displays are not undone.
-/

namespace Waywallen

open TaskPool

/-- Which playlist owns which display. -/
abbrev Playlists := HashMap DisplayId ℕ

namespace Playlists

/-- The displays listed, all owned ones if none is, are released by their playlists. -/
def deactivate (owned : Playlists) (displays : List DisplayId) : Playlists :=
  (if displays = [] then owned.keys else displays).foldl (fun m d => m.erase d) owned

/-- What one step of an apply path does to the playlists: the request deactivates them as soon as
it has found the wallpaper. -/
def afterStep (owned : Playlists) : Call × Choice → Playlists
  | (.apply (.wallpaperApply displays _), .entry _) => owned.deactivate displays
  | _ => owned

def after (owned : Playlists) (steps : List (Call × Choice)) : Playlists :=
  steps.foldl afterStep owned

theorem lookup_deactivate (owned : Playlists) (displays : List DisplayId) (d : DisplayId) :
    (owned.deactivate displays).lookup d =
      if (displays = [] ∨ d ∈ displays) then none else owned.lookup d := by
  rw [deactivate]
  refine (HashMap.lookup_foldl_erase _ owned d).trans ?_
  by_cases hnil : displays = []
  · simp only [hnil, if_true, true_or]
    split
    · rfl
    · rename_i hd
      exact Option.not_isSome_iff_eq_none.1 fun h =>
        hd ((HashMap.mem_keys_iff owned d).2 (Option.isSome_iff_exists.1 h))
  · simp [hnil]

end Playlists

/-- The apply core returned a renderer. -/
def CoreSucceeds (steps : List (Call × Choice)) : Prop :=
  ∃ run r x, (Call.apply (.finish run r), x) ∈ steps

/-- The request was answered without an error. -/
def RequestSucceeds (steps : List (Call × Choice)) : Prop :=
  ∃ r, (Call.apply (.waitForFirstFrame r), Choice.tick) ∈ steps

/-- Every display still has its link, every renderer shown is still registered and alive, and every
display owned by a playlist is still owned by it. -/
structure Undisturbed (ro ro' : Roster) (owned owned' : Playlists) : Prop where
  links : ∀ d r, ro.route d = some r → ro'.route d = some r
  alive : ∀ d r, ro.route d = some r →
    ro'.renderer r = ro.renderer r ∧ ro'.managed.lookup r = ro.managed.lookup r
  playlists : ∀ d p, owned.lookup d = some p → owned'.lookup d = some p

namespace Roster

variable (ro : Roster)

/-- The renderer is linked to a display. -/
def Shown (r : RendererId) : Prop := ∃ d, ro.route d = some r

theorem shown_stop {gone : List RendererId} {d : DisplayId} {r : RendererId} :
    (ro.stop gone).route d = some r ↔ ro.route d = some r ∧ r ∉ gone := by
  simp [stop, unregister, kill, Option.filter_eq_some_iff]

theorem renderer_stop {gone : List RendererId} {r : RendererId} (h : r ∉ gone) :
    (ro.stop gone).renderer r = ro.renderer r ∧
      (ro.stop gone).managed.lookup r = ro.managed.lookup r := by
  rw [lookup_managed_stop, if_neg h]
  exact ⟨if_neg h, rfl⟩

theorem route_relink (target : Option (List DisplayId)) (r : RendererId) (d : DisplayId) :
    (ro.relink target r).route d = if ro.targeted target d then some r else ro.route d := rfl

/-- Stopping renderers disturbs nothing exactly if none of them is shown. -/
theorem undisturbed_stop {gone : List RendererId} {owned owned' : Playlists} :
    Undisturbed ro (ro.stop gone) owned owned' ↔ (∀ r ∈ gone, ¬ ro.Shown r) ∧
      ∀ d p, owned.lookup d = some p → owned'.lookup d = some p := by
  constructor
  · intro h
    refine ⟨fun r hr ⟨d, hd⟩ => ?_, h.playlists⟩
    exact ((shown_stop ro).1 (h.links d r hd)).2 hr
  · rintro ⟨hgone, howned⟩
    have hnot {d : DisplayId} {r : RendererId} (hd : ro.route d = some r) : r ∉ gone :=
      fun hr => hgone r hr ⟨d, hd⟩
    exact ⟨fun d r hd => (shown_stop ro).2 ⟨hd, hnot hd⟩,
      fun d r hd => ro.renderer_stop (hnot hd), howned⟩

/-- Some renderers are stopped, the targets are linked to a renderer, and that one is stopped too:
nothing is disturbed exactly if neither the stopped renderers nor the targets had a link. -/
theorem undisturbed_relink_stop {ro₂ : Roster} {target : Option (List DisplayId)}
    {r : RendererId} {victims gone : List RendererId} {owned owned' : Playlists}
    (hroute : ∀ d q, ro₂.route d = some q ↔ ro.route d = some q ∧ q ∉ victims)
    (hsame : ∀ q, q ∉ victims → q ≠ r → ro₂.renderer q = ro.renderer q ∧
      ro₂.managed.lookup q = ro.managed.lookup q)
    (hdisplay : ro₂.display = ro.display) (hgone : Reaped (ro₂.relink target r) r gone) :
    Undisturbed ro (((ro₂.relink target r).stop gone).stop [r]) owned owned' ↔
      (∀ q ∈ victims, ¬ ro.Shown q) ∧
      (¬ ro.Shown r ∧ ∀ d, ro.targeted target d = true → ro.route d = none) ∧
        ∀ d p, owned.lookup d = some p → owned'.lookup d = some p := by
  have htargeted (d : DisplayId) : ro₂.targeted target d = ro.targeted target d := by
    rw [targeted, targeted, hdisplay]
  constructor
  · intro h
    have hkept {d : DisplayId} {q : RendererId} (hd : ro.route d = some q) :
        q ≠ r ∧ (ro₂.relink target r).route d = some q := by
      obtain ⟨hkept, hqr⟩ := (shown_stop _).1 (h.links d q hd)
      exact ⟨fun hq => hqr (hq ▸ List.mem_singleton_self r), ((shown_stop _).1 hkept).1⟩
    have htarget {d : DisplayId} {q : RendererId} (hd : ro.route d = some q) :
        ro.targeted target d ≠ true := fun ht => by
      obtain ⟨hqr, hrelinked⟩ := hkept hd
      rw [route_relink, if_pos ((htargeted d).trans ht), Option.some_inj] at hrelinked
      exact hqr hrelinked.symm
    refine ⟨fun q hq hshown => ?_, ⟨fun hshown => ?_, fun d ht => ?_⟩, h.playlists⟩
    · obtain ⟨d, hd⟩ := hshown
      have hrelinked := (hkept hd).2
      rw [route_relink, if_neg fun ht => htarget hd ((htargeted d).symm.trans ht)] at hrelinked
      exact ((hroute d q).1 hrelinked).2 hq
    · obtain ⟨d, hd⟩ := hshown
      exact (hkept hd).1 rfl
    · by_contra hne
      obtain ⟨q, hq⟩ := Option.ne_none_iff_exists'.1 hne
      exact htarget hq ht
  · rintro ⟨hvictims, ⟨hr, ht⟩, howned⟩
    have hnot {d : DisplayId} {q : RendererId} (hd : ro.route d = some q) : q ∉ victims :=
      fun hq => hvictims q hq ⟨d, hd⟩
    have hne {d : DisplayId} {q : RendererId} (hd : ro.route d = some q) : q ≠ r := by
      rintro rfl
      exact hr ⟨d, hd⟩
    have hstays {d : DisplayId} {q : RendererId} (hd : ro.route d = some q) :
        (ro₂.relink target r).route d = some q := by
      rw [route_relink, if_neg fun h => by rw [ht d ((htargeted d).symm.trans h)] at hd; cases hd]
      exact (hroute d q).2 ⟨hd, hnot hd⟩
    have hgone {d : DisplayId} {q : RendererId} (hd : ro.route d = some q) : q ∉ gone :=
      fun hq => (hgone.unlinked q hq).2 d (hstays hd)
    have hother {d : DisplayId} {q : RendererId} (hd : ro.route d = some q) : q ∉ [r] :=
      fun hq => hne hd (List.mem_singleton.1 hq)
    refine ⟨fun d q hd => (shown_stop _).2 ⟨(shown_stop _).2 ⟨hstays hd, hgone hd⟩, hother hd⟩,
      fun d q hd => ?_, howned⟩
    obtain ⟨h₁, h₂⟩ := hsame q (hnot hd) (hne hd)
    obtain ⟨h₃, h₄⟩ := (ro₂.relink target r).renderer_stop (hgone hd)
    obtain ⟨h₅, h₆⟩ := ((ro₂.relink target r).stop gone).renderer_stop (hother hd)
    exact ⟨h₅.trans (h₃.trans h₁), h₆.trans (h₄.trans h₂)⟩

end Roster

/-- A step of an apply to the targets destroys nothing that is in use: the renderers it stops are not
shown, the displays it releases are owned by no playlist, and if it waits in vain for a first frame,
neither the targets nor the renderer had a link. -/
def SparesStep (s : Daemon) (owned : Playlists) (target : Option (List DisplayId)) :
    Call × Choice → Prop
  | (.apply (.wallpaperApply displays _), .entry _) =>
      ∀ d p, owned.lookup d = some p → ¬ (displays = [] ∨ d ∈ displays)
  | (.apply (.stopReplaced _ _), _) | (.apply (.requestStopReplaced _ _ _), _) =>
      ∀ r ∈ s.replacedBy target, ¬ s.roster.Shown r
  | (.apply (.waitForFirstFrame r), .fail) =>
      ¬ s.roster.Shown r ∧ ∀ d, s.roster.targeted target d = true → s.roster.route d = none
  | _ => True

def Spares (s : Daemon) (owned : Playlists) (target : Option (List DisplayId))
    (steps : List (Call × Choice)) : Prop :=
  ∀ e ∈ steps, SparesStep s owned target e

section Failure

variable {s : Daemon} {owned : Playlists} {steps : List (Call × Choice)} {ro : Roster}

/-- A failed apply core disturbs nothing exactly if no renderer it stopped was shown. -/
theorem CoreRun.undisturbed_iff {target : Option (List DisplayId)}
    (h : CoreRun s target steps ro) (hfail : ¬ CoreSucceeds steps) :
    Undisturbed s.roster ro owned (owned.after steps) ↔ Spares s owned target steps := by
  have hplaylists : ∀ d p, owned.lookup d = some p → owned.lookup d = some p := fun _ _ => id
  cases h with
  | rejected =>
    refine iff_of_true ⟨fun _ _ => id, fun _ _ _ => ⟨rfl, rfl⟩, hplaylists⟩ ?_
    simp [Spares, SparesStep]
  | noExtras =>
    refine s.roster.undisturbed_stop.trans ⟨fun h => ?_, fun h => ⟨?_, hplaylists⟩⟩
    · simpa [Spares, SparesStep, coreStart] using h.1
    · simpa [Spares, SparesStep, coreStart] using h
  | spawnFailed hm hr =>
    refine s.roster.undisturbed_stop.trans ⟨fun h => ?_, fun h => ⟨?_, hplaylists⟩⟩
    · simpa [Spares, SparesStep, coreStart] using h.1
    · simpa [Spares, SparesStep, coreStart] using h
  | reused hm hr hgone => exact absurd (by simp [CoreSucceeds, coreStart]) hfail
  | spawned hm hr hid hgone => exact absurd (by simp [CoreSucceeds, coreStart]) hfail

/-- The playlists keep their displays through a request exactly if it releases none of them. -/
theorem released_iff {displays : List DisplayId} {name : Option String} {ty : String}
    {rest : List (Call × Choice)} (hrest : ∀ owned : Playlists, owned.after rest = owned) :
    (∀ d p, owned.lookup d = some p → (owned.after
      ((.apply (.wallpaperApply displays name), .entry ty) :: rest)).lookup d = some p) ↔
      ∀ d p, owned.lookup d = some p → ¬ (displays = [] ∨ d ∈ displays) := by
  have hafter : owned.after ((.apply (.wallpaperApply displays name), .entry ty) :: rest) =
      owned.deactivate displays := hrest _
  rw [hafter]
  refine forall₃_congr fun d p hd => ?_
  rw [Playlists.lookup_deactivate]
  split
  · rename_i hreleased
    exact iff_of_false (Option.some_ne_none p).symm (not_not.2 hreleased)
  · rename_i hkept
    exact iff_of_true hd hkept

/-- A failed request disturbs nothing exactly if what it stopped, released and relinked was not in
use. -/
theorem RequestRun.undisturbed_iff {displays : List DisplayId} {name : Option String}
    (h : RequestRun s displays name steps ro) (hfail : ¬ RequestSucceeds steps) :
    Undisturbed s.roster ro owned (owned.after steps) ↔
      Spares s owned (requested displays) steps := by
  have hsame (owned' : Playlists) : Undisturbed s.roster s.roster owned owned' ↔
      ∀ d p, owned.lookup d = some p → owned'.lookup d = some p :=
    ⟨fun h => h.playlists, fun h => ⟨fun _ _ => id, fun _ _ _ => ⟨rfl, rfl⟩, h⟩⟩
  cases h with
  | @rejected x =>
    rw [hsame]
    cases x with
    | entry ty =>
      refine (released_iff fun _ => rfl).trans ?_
      simp [Spares, SparesStep]
    | _ => exact iff_of_true (fun _ _ => id) (by simp [Spares, SparesStep])
  | noExtras =>
    rw [hsame]
    refine (released_iff fun _ => rfl).trans ?_
    simp [Spares, SparesStep]
  | spawnFailed hr =>
    refine s.roster.undisturbed_stop.trans ((and_congr_right' (released_iff fun _ => rfl)).trans ?_)
    rw [and_comm]
    simp [Spares, SparesStep]
  | @reused ty extras layout y z r gone _ hd hr hgone hframe =>
    obtain ⟨rfl, -⟩ | ⟨rfl, rfl⟩ := hframe
    · exact absurd (by simp [RequestSucceeds]) hfail
    have hnone : ∀ q ∈ ([] : List RendererId), ¬ s.roster.Shown q := fun _ hq =>
      absurd hq List.not_mem_nil
    refine (s.roster.undisturbed_relink_stop
      (fun d q => (and_iff_left List.not_mem_nil).symm) (fun _ _ _ => ⟨rfl, rfl⟩) rfl hgone).trans ?_
    refine (and_iff_right hnone).trans
      ((and_congr_right' (released_iff fun _ => rfl)).trans ?_)
    rw [and_comm]
    simp [Spares, SparesStep]
  | @spawned ty extras layout y w z v gone _ h hr hid hgone hframe =>
    obtain ⟨rfl, -⟩ | ⟨rfl, rfl⟩ := hframe
    · exact absurd (by simp [RequestSucceeds]) hfail
    have hroute (d : DisplayId) (q : RendererId) :
        ((s.roster.stop (s.replacedBy (requested displays))).add h).route d = some q ↔
          s.roster.route d = some q ∧ q ∉ s.replacedBy (requested displays) :=
      s.roster.shown_stop
    refine (s.roster.undisturbed_relink_stop hroute (fun q hq hne => ?_) rfl hgone).trans ?_
    · obtain ⟨hrenderer, hmanaged⟩ := s.roster.renderer_stop hq
      refine ⟨(if_neg hne).trans hrenderer, ?_⟩
      rw [Roster.add, AList.lookup_insert_ne hne, hmanaged]
    refine (and_congr_right' (and_congr_right' (released_iff fun _ => rfl))).trans ?_
    rw [and_comm, and_assoc, and_comm, and_assoc]
    simp [Spares, SparesStep]

end Failure

/-- If an apply path that runs alone ends with an error, then no link, no shown renderer and no
playlist is lost exactly if what it stopped, released and relinked was not in use. -/
theorem undisturbed_iff (s : Daemon) (owned : Playlists) :
    (∀ target tr s', Alone semantics s [.apply (.applyWallpaperCore target)] tr s' →
      ¬ CoreSucceeds (applySteps tr) →
      (Undisturbed s.roster s'.roster owned (owned.after (applySteps tr)) ↔
        Spares s owned target (applySteps tr))) ∧
    (∀ displays name tr s', Alone semantics s [.apply (.wallpaperApply displays name)] tr s' →
      ¬ RequestSucceeds (applySteps tr) →
      (Undisturbed s.roster s'.roster owned (owned.after (applySteps tr)) ↔
        Spares s owned (requested displays) (applySteps tr))) :=
  ⟨fun _ _ _ h hfail => (coreRun_of_alone h).undisturbed_iff hfail,
    fun _ _ _ _ h hfail => (requestRun_of_alone h).undisturbed_iff hfail⟩

/-! ## What the design promises -/

/-- The path got as far as a spawn. -/
def Spawns (steps : List (Call × Choice)) : Prop :=
  ∃ req purpose x, (Call.apply (.spawn req purpose), x) ∈ steps

/-- A display linked to a renderer that is not stopped keeps its link, and the renderer stays. -/
def Keeps (ro ro' : Roster) (stopped : RendererId → Prop) : Prop :=
  ∀ d r, ro.route d = some r → ¬ stopped r → ro'.route d = some r ∧
    ro'.renderer r = ro.renderer r ∧ ro'.managed.lookup r = ro.managed.lookup r

theorem keeps_refl (ro : Roster) (stopped : RendererId → Prop) : Keeps ro ro stopped :=
  fun _ _ hd _ => ⟨hd, rfl, rfl⟩

theorem keeps_stop (ro : Roster) {gone : List RendererId} {stopped : RendererId → Prop}
    (h : ∀ r ∈ gone, stopped r) : Keeps ro (ro.stop gone) stopped := by
  intro d r hd hr
  have hgone : r ∉ gone := fun hmem => hr (h r hmem)
  exact ⟨ro.shown_stop.2 ⟨hd, hgone⟩, ro.renderer_stop hgone⟩

theorem CoreRun.keeps {s : Daemon} {target : Option (List DisplayId)}
    {steps : List (Call × Choice)} {ro : Roster} (h : CoreRun s target steps ro)
    (hfail : ¬ CoreSucceeds steps)
    (hextras : ∀ run ty, (Call.apply (.callExtras run ty), .fail) ∉ steps) :
    Keeps s.roster ro fun r => Spawns steps ∧ r ∈ s.replacedBy target := by
  cases h with
  | rejected => exact keeps_refl _ _
  | @noExtras ty x => exact absurd (by simp [coreStart]) (hextras (s.nextRun target) ty)
  | spawnFailed hm hr => exact keeps_stop _ fun r hr => ⟨by simp [Spawns, coreStart], hr⟩
  | reused hm hr hgone => exact absurd (by simp [CoreSucceeds, coreStart]) hfail
  | spawned hm hr hid hgone => exact absurd (by simp [CoreSucceeds, coreStart]) hfail

theorem RequestRun.keeps {s : Daemon} {displays : List DisplayId} {name : Option String}
    {steps : List (Call × Choice)} {ro : Roster} (h : RequestRun s displays name steps ro)
    (hfail : ¬ RequestSucceeds steps)
    (hframe : ∀ r, (Call.apply (.waitForFirstFrame r), .fail) ∉ steps) :
    Keeps s.roster ro fun r => Spawns steps ∧ r ∈ s.replacedBy (requested displays) := by
  cases h with
  | rejected => exact keeps_refl _ _
  | noExtras => exact keeps_refl _ _
  | spawnFailed hr => exact keeps_stop _ fun r hr => ⟨by simp [Spawns], hr⟩
  | @reused ty extras layout y z r gone _ hd hr hgone hrun =>
    obtain ⟨rfl, -⟩ | ⟨rfl, -⟩ := hrun
    · exact absurd (by simp [RequestSucceeds]) hfail
    · exact absurd (by simp) (hframe r)
  | @spawned ty extras layout y w z v gone _ h hr hid hgone hrun =>
    obtain ⟨rfl, -⟩ | ⟨rfl, -⟩ := hrun
    · exact absurd (by simp [RequestSucceeds]) hfail
    · exact absurd (by simp) (hframe h.id)

theorem CoreRun.after_eq {s : Daemon} {target : Option (List DisplayId)}
    {steps : List (Call × Choice)} {ro : Roster} (h : CoreRun s target steps ro)
    (owned : Playlists) : owned.after steps = owned := by
  cases h <;> rfl

/-- A display that the request does not name keeps its playlist. -/
theorem RequestRun.lookup_after {s : Daemon} {displays : List DisplayId} {name : Option String}
    {steps : List (Call × Choice)} {ro : Roster} (h : RequestRun s displays name steps ro)
    (owned : Playlists) {d : DisplayId} (hd : ¬ (displays = [] ∨ d ∈ displays)) :
    (owned.after steps).lookup d = owned.lookup d := by
  have hreleased : (owned.deactivate displays).lookup d = owned.lookup d := by
    rw [Playlists.lookup_deactivate, if_neg hd]
  cases h with
  | @rejected x =>
    cases x with
    | entry ty => exact hreleased
    | _ => rfl
  | _ => exact hreleased

def sceneDrawn : DaemonPool :=
  Transition.reached semantics.step (start sceneRegistry) sceneBound (by decide +kernel)

def otherWallpaper : Choice :=
  .properties ((∅ : HashMap String String).insert "path" "/other") default

/-- The shutdown of renderer 7, whose display does not answer the unbind. -/
def sceneStops : List Choice := List.replicate 8 .tick ++ .fail :: List.replicate 3 .tick

def coreFails : List Choice := .entry "scene" :: sceneStops ++ [otherWallpaper, .tick, .fail]

def coreFailed : DaemonPool :=
  Transition.reached semantics.step sceneDrawn
    (.start .applyGlobal :: coreFails.map (.run sceneDrawn.tasks.length)) (by decide +kernel)

def coreFailedTrace : List (Call × Choice) :=
  Alone.trace semantics sceneDrawn.tasks.length ⟨sceneDrawn.shared, sceneDrawn.tasks ++
    [{ stack := [.apply (.applyWallpaperCore none)], cancellable := true }]⟩ coreFails

theorem alone_coreFailed : Alone semantics sceneDrawn.shared [.apply (.applyWallpaperCore none)]
    coreFailedTrace coreFailed.shared := by
  have hrun : Transition.run semantics.step sceneDrawn
      (.start .applyGlobal :: coreFails.map (.run sceneDrawn.tasks.length)) = some coreFailed :=
    Transition.run_reached ..
  have hend : (coreFailed.tasks[sceneDrawn.tasks.length]?.all fun t => t.stack.isEmpty) = true := by
    decide
  exact Alone.of_start rfl hrun hend

def requestFails : List Choice :=
  [.entry "scene", otherWallpaper, .tick] ++ sceneStops ++ [.fail]

def requestFailed : DaemonPool :=
  Transition.reached semantics.step sceneDrawn
    (.start (.wallpaperApply [1] none) :: requestFails.map (.run sceneDrawn.tasks.length))
    (by decide +kernel)

def requestFailedTrace : List (Call × Choice) :=
  Alone.trace semantics sceneDrawn.tasks.length ⟨sceneDrawn.shared, sceneDrawn.tasks ++
    [{ stack := [.apply (.wallpaperApply [1] none)] }]⟩ requestFails

theorem alone_requestFailed : Alone semantics sceneDrawn.shared
    [.apply (.wallpaperApply [1] none)] requestFailedTrace requestFailed.shared := by
  have hrun : Transition.run semantics.step sceneDrawn (.start (.wallpaperApply [1] none) ::
      requestFails.map (.run sceneDrawn.tasks.length)) = some requestFailed :=
    Transition.run_reached ..
  have hend : (requestFailed.tasks[sceneDrawn.tasks.length]?.all fun t => t.stack.isEmpty) =
      true := by
    decide
  exact Alone.of_start rfl hrun hend

/-- No step satisfies the test. -/
theorem not_mem_of_all {steps : List (Call × Choice)} {f : Call × Choice → Bool}
    (h : (steps.all fun e => !f e) = true) {e : Call × Choice} (he : f e = true) : e ∉ steps :=
  fun hmem => by
    have hnot := List.all_eq_true.1 h e hmem
    rw [he] at hnot
    cases hnot

/-- Neither a success nor one of the failures left open. -/
def Call.endsOtherwise : Call × Choice → Bool
  | (.apply (.finish _ _), _) | (.apply (.waitForFirstFrame _), _)
  | (.apply (.callExtras _ _), .fail) => true
  | _ => false

theorem not_coreSucceeds_coreFailed : ¬ CoreSucceeds (applySteps coreFailedTrace) :=
  fun ⟨_, _, _, h⟩ => not_mem_of_all (f := Call.endsOtherwise) (by decide) rfl h

theorem not_requestSucceeds_requestFailed : ¬ RequestSucceeds (applySteps requestFailedTrace) :=
  fun ⟨_, h⟩ => not_mem_of_all (f := Call.endsOtherwise) (by decide) rfl h

def sceneOwned : Playlists := (∅ : Playlists).insert 1 4

end Waywallen
