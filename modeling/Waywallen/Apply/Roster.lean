import Waywallen.Daemon.Continues

/-!
# Who is shown where

The roster of a state is what an apply is about: the renderers the manager runs, those the router
has registered, and which of them each display is linked to. Most calls leave the roster alone; the
others remove renderers, add one, or relink displays.
-/

namespace Waywallen

open TaskPool

@[ext]
structure Roster where
  /-- wallpaper type → renderer plugins, best first. -/
  registry : HashMap String (List String)
  managed : HashMap RendererId RendererHandle
  used : List RendererId
  renderer : RendererId → Option RendererHandle
  route : DisplayId → Option RendererId
  display : DisplayId → Bool

def Daemon.roster (s : Daemon) : Roster where
  registry := s.registry
  managed := s.managed
  used := s.history.used
  renderer := s.inner.table.getRenderer
  route := s.inner.table.routeOf
  display := s.inner.displays.containsKey

namespace Roster

variable (ro : Roster)

/-- The router forgets the renderers. -/
def unregister (gone : List RendererId) : Roster :=
  { ro with
    renderer := fun q => if q ∈ gone then none else ro.renderer q
    route := fun d => (ro.route d).filter (· ∉ gone) }

/-- The manager kills the renderers. -/
def kill (gone : List RendererId) : Roster :=
  { ro with managed := gone.foldl (fun m r => m.erase r) ro.managed }

def stop (gone : List RendererId) : Roster := (ro.unregister gone).kill gone

/-- A renderer has been spawned and registered. -/
def add (h : RendererHandle) : Roster :=
  { ro with
    managed := ro.managed.insert h.id h
    used := h.id :: ro.used
    renderer := fun q => if q = h.id then some h else ro.renderer q }

/-- The displays an apply is for: all, or the registered ones among those asked for. -/
def targeted (target : Option (List DisplayId)) (d : DisplayId) : Bool :=
  ro.display d && target.all (·.contains d)

def relink (target : Option (List DisplayId)) (r : RendererId) : Roster :=
  { ro with route := fun d => if ro.targeted target d then some r else ro.route d }

@[simp] theorem unregister_nil : ro.unregister [] = ro := by
  ext <;> simp [unregister]

@[simp] theorem kill_nil : ro.kill [] = ro := rfl

@[simp] theorem stop_nil : ro.stop [] = ro := ro.unregister_nil

theorem unregister_cons (r : RendererId) (gone : List RendererId) :
    ro.unregister (r :: gone) = (ro.unregister [r]).unregister gone := by
  ext q
  · rfl
  · rfl
  · rfl
  · by_cases hr : q = r <;> by_cases hq : q ∈ gone <;> simp [unregister, hr, hq]
  · simp only [unregister]
    cases ro.route q with
    | none => rfl
    | some q => by_cases hr : q = r <;> by_cases hq : q ∈ gone <;> simp [Option.filter, hr, hq]
  · rfl

theorem kill_cons (r : RendererId) (gone : List RendererId) :
    ro.kill (r :: gone) = (ro.kill [r]).kill gone := rfl

theorem stop_cons (r : RendererId) (gone : List RendererId) :
    ro.stop (r :: gone) = (ro.stop [r]).stop gone := by
  rw [stop, unregister_cons, kill_cons]
  rfl

theorem lookup_managed_stop (gone : List RendererId) (q : RendererId) :
    (ro.stop gone).managed.lookup q = if q ∈ gone then none else ro.managed.lookup q :=
  HashMap.lookup_foldl_erase gone ro.managed q

end Roster

/-- Calls that neither add nor remove nor relink anything, and lead to such calls only. -/
def Call.quiet : Call → Bool
  | .router (.setRendererWallpaperLayoutOverride _ _) | .router (.beginUnbindAckTracking _)
  | .router (.awaitUnbindAcks _) | .router (.clearUnbindAcks _) | .router (.cancelOrphanTimer _)
  | .router (.abortTask _) | .router (.scheduleOrphanGrace _) | .router (.armOrphanTimer _ _)
  | .router (.resyncDisplaySetConfig _) | .router .reconcileLifecycle
  | .router (.sendLifecycle _) | .router .reconcileBufferFlags | .router (.syncDisplay _)
  | .router (.emit _) | .router (.emitDisplayUpsert _) | .router .emitDisplaysReplace
  | .router (.emitRendererUpsert _) => true
  | .manager (.writeControl _ _ _) | .manager (.sendNegotiateBuffers _ _)
  | .manager (.sendNegotiate _ _) | .manager (.writeNegotiate _ _)
  | .manager (.storeDispatchedScheme _ _) => true
  | _ => false

/-- A step of one of the apply paths. -/
def Call.isApply : Call → Bool
  | .apply _ => true
  | _ => false

theorem Call.not_isApply_of_quiet {c : Call} (h : c.quiet = true) : c.isApply = false := by
  cases c <;> first | rfl | cases h

theorem Call.Continues.quiet {fresh : ℕ} {s : Daemon} {c k : Call} (h : c.Continues fresh s k)
    (hc : c.quiet = true) : k.quiet = true := by
  cases h <;> first | rfl | cases hc | (rename_i h; cases h <;> cases hc)

section Exec

variable {x : Choice} {n : ℕ} {s : Daemon} {c : Call} {o : Step}

theorem registry_exec (ho : c.exec x n s = some o) : o.shared.registry = s.registry := by
  cases c with
  | router c => exact (RouterCall.untouched ho).registry
  | manager c => exact (congrArg Daemon.registry (ManagerCall.shared_eq ho)).trans rfl
  | reader c => exact (congrArg Daemon.registry (ReaderCall.shared_eq ho)).trans rfl
  | endpoint c => exact (congrArg Daemon.registry (EndpointCall.shared_eq ho)).trans rfl
  | apply c => exact (congrArg Daemon.registry (ApplyCall.shared_eq ho)).trans rfl

/-- The parts of the roster after a router call. -/
theorem roster_exec_router {c : RouterCall} (ho : (Call.router c).exec x n s = some o) :
    o.shared.roster = { s.roster with
      renderer := (c.tableAfter s).getRenderer
      route := (c.tableAfter s).routeOf
      display := (c.innerAfter s).displays.containsKey } := by
  have hinner : o.shared.inner = c.innerAfter s := Call.inner_exec ho
  have hframe := Call.frame_exec ho
  have huntouched := RouterCall.untouched ho
  ext1
  · exact huntouched.registry
  · exact huntouched.managed
  · exact huntouched.used
  · show o.shared.inner.table.getRenderer = _
    rw [hframe.table]
  · show o.shared.inner.table.routeOf = _
    rw [hframe.table]
  · show o.shared.inner.displays.containsKey = _
    rw [hinner]

theorem roster_exec_manager {c : ManagerCall} (ho : (Call.manager c).exec x n s = some o) :
    o.shared.roster = { s.roster with managed := (Call.manager c).managedAfter s } := by
  have hinner : o.shared.inner = s.inner := ManagerCall.inner_exec ho
  have hused : o.shared.history.used = s.history.used := by
    rw [Call.history_exec ho]
    rfl
  rw [Daemon.roster, hinner, Call.managed_exec ho, hused, registry_exec ho]
  rfl

/-- The displays after a call that is not about registering them. -/
theorem containsKey_innerAfter (s : Daemon) {c : RouterCall}
    (hregister : ∀ reg b, c ≠ .registerDisplay reg b) (hleave : ∀ d, c ≠ .unregisterDisplay d) :
    (c.innerAfter s).displays.containsKey = s.inner.displays.containsKey := by
  funext d
  rw [Inner.containsKey_displays, Inner.containsKey_displays, RouterCall.autopauseOf_innerAfter]
  cases c with
  | registerDisplay reg b => exact absurd rfl (hregister reg b)
  | unregisterDisplay e => exact absurd rfl (hleave e)
  | updateDisplayWindowState e flags | resumeAutopause e gen =>
    dsimp only
    split
    · rename_i he
      subst he
      simp [Inner.autopauseOf]
    · rfl
  | _ => rfl

theorem roster_exec_quiet (ho : c.exec x n s = some o) (hc : c.quiet = true) :
    o.shared.roster = s.roster := by
  cases c with
  | router c =>
    rw [roster_exec_router ho, containsKey_innerAfter s (by rintro _ _ rfl; cases hc)
      (by rintro _ rfl; cases hc)]
    cases c <;> first | rfl | cases hc
  | manager c =>
    rw [roster_exec_manager ho]
    cases c <;> first | rfl | cases hc
  | reader c => cases hc
  | endpoint c => cases hc
  | apply c => cases hc

end Exec

/-! ## Calls executed to their end -/

section Alone

variable {s s' : Daemon} {cs : List Call} {tr : List (Call × Choice)}

/-- No step of an apply path was taken. -/
def NoApply (tr : List (Call × Choice)) : Prop := ∀ e ∈ tr, e.1.isApply = false

theorem NoApply.append {tr₁ tr₂ : List (Call × Choice)} (h₁ : NoApply tr₁) (h₂ : NoApply tr₂) :
    NoApply (tr₁ ++ tr₂) :=
  fun e he => (List.mem_append.1 he).elim (h₁ e) (h₂ e)

theorem NoApply.cons {c : Call} {x : Choice} (hc : c.isApply = false) (h : NoApply tr) :
    NoApply ((c, x) :: tr) :=
  List.forall_mem_cons.2 ⟨hc, h⟩

theorem noApply_nil : NoApply [] := fun _ he => absurd he List.not_mem_nil

theorem alone_quiet (h : Alone semantics s cs tr s') (hcs : ∀ c ∈ cs, c.quiet = true) :
    s'.roster = s.roster ∧ NoApply tr := by
  obtain ⟨hroster, htr⟩ := h.invariant (I := fun t => t.roster = s.roster)
    (H := fun c => c.quiet = true)
    (fun t c x n o ht hc ho => ⟨(roster_exec_quiet ho hc).trans ht, fun k hk =>
      (Call.continues ho hk).quiet hc⟩) rfl hcs
  exact ⟨hroster, fun e he => Call.not_isApply_of_quiet (htr e he)⟩

/-- A call that leads to quiet calls only, executed to its end. -/
theorem alone_singleton {c : Call} {ro : Roster} (h : Alone semantics s [c] tr s')
    (hc : c.isApply = false) (hexec : ∀ x n o, c.exec x n s = some o →
      o.shared.roster = ro ∧ ∀ k ∈ o.next, k.quiet = true) : s'.roster = ro ∧ NoApply tr := by
  obtain ⟨x, n, o, tr', ho, hrest, rfl⟩ := h.cons_inv
  obtain ⟨hroster, hnext⟩ := hexec x n o ho
  rw [List.append_nil] at hrest
  obtain ⟨hs', htr⟩ := alone_quiet hrest hnext
  exact ⟨hs'.trans hroster, htr.cons hc⟩

/-- Calls of one kind for each of several renderers. -/
theorem alone_map {f : RendererId → Call} {op : Roster → List RendererId → Roster}
    (hnil : ∀ ro, op ro [] = ro) (hcons : ∀ ro r rs, op ro (r :: rs) = op (op ro [r]) rs)
    (hf : ∀ {s s' : Daemon} {tr} (r), Alone semantics s [f r] tr s' →
      s'.roster = op s.roster [r] ∧ NoApply tr)
    {rs : List RendererId} (h : Alone semantics s (rs.map f) tr s') :
    s'.roster = op s.roster rs ∧ NoApply tr := by
  induction rs generalizing s tr with
  | nil =>
    obtain ⟨rfl, rfl⟩ := h.nil_inv
    exact ⟨(hnil _).symm, noApply_nil⟩
  | cons r rs ih =>
    have h : Alone semantics s ([f r] ++ rs.map f) tr s' := h
    obtain ⟨m, tr₁, tr₂, h₁, h₂, rfl⟩ := h.append_inv
    obtain ⟨hm, htr₁⟩ := hf r h₁
    obtain ⟨hs', htr₂⟩ := ih h₂
    rw [hs', hm, ← hcons]
    exact ⟨rfl, htr₁.append htr₂⟩

end Alone

end Waywallen
