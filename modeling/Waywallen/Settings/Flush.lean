import Waywallen.Settings.Saved

/-!
# When `flush_now` saves

The runs in which every `flush_now` that finds the flag clear has nothing to wait for: what it
returns on is on disk, and the file of a quiet store reads as the settings in memory.
-/

namespace Waywallen

open TaskPool

variable {S T : Type}

/-- A `flush_now` call finds the flag clear only while no other flush has cleared it and is still
to rename its file, and when the settings that completed updates found in place have been part of
a snapshot. -/
def StoreCall.InTurn (s : SettingsStore S T) : StoreCall S T → Prop
  | loadDirty (some ticket) => s.dirty = true ∨
      s.flushing = false ∧ ticket.found ≤ s.history.snapshotted
  | swapDirty (some ticket) => s.dirty = true ∨ ticket.found ≤ s.history.snapshotted
  | _ => True

instance StoreCall.InTurn.decidable (s : SettingsStore S T) :
    (c : StoreCall S T) → Decidable (c.InTurn s)
  | .loadDirty (some ticket) => inferInstanceAs (Decidable (s.dirty = true ∨
      s.flushing = false ∧ ticket.found ≤ s.history.snapshotted))
  | .swapDirty (some ticket) => inferInstanceAs (Decidable (s.dirty = true ∨
      ticket.found ≤ s.history.snapshotted))
  | .loadDirty none | .swapDirty none | .change _ | .markDirty _ | .notifyOne _ | .awaitNotify
  | .debounce | .flushNow | .takeSnapshot _ | .createDirAll _ _ | .writeTmp _ _ | .renameTmp _
  | .detachedWrite _ | .detachedRename => .isTrue trivial

/-- Every file write succeeds, every `flush_now` that finds the flag clear has nothing to wait for,
and no flush is dropped while it writes. -/
def FlushesInTurn (p : StorePool S T) : StoreLabel S → Prop
  | .run i x => x ≠ .fail ∧
      ∀ c ∈ (p.tasks[i]?.bind fun t => t.stack.head?), c.InTurn p.shared
  | .drop i => ∀ t ∈ p.tasks[i]?, ∀ c ∈ t.stack, c.writes = false
  | _ => True

instance FlushesInTurn.decidable (p : StorePool S T) : (l : StoreLabel S) →
    Decidable (FlushesInTurn p l)
  | .run i x => inferInstanceAs (Decidable (x ≠ .fail ∧
      ∀ c ∈ (p.tasks[i]?.bind fun t => t.stack.head?), c.InTurn p.shared))
  | .drop i => inferInstanceAs (Decidable (∀ t ∈ p.tasks[i]?, ∀ c ∈ t.stack, c.writes = false))
  | .wake _ | .start _ | .env _ => .isTrue trivial

/-- Once it is loaded, the file reads as the settings. -/
def SettingsStore.FileRead.loads (C : SettingsCodec S T) : FileRead T → Bool
  | content text => (C.decode text).isSome
  | notFound => true
  | unreadable _ => false

namespace SettingsStore

section Exec

variable [DecidableEq S] {C : SettingsCodec S T} {s : SettingsStore S T} {c : StoreCall S T}
  {rest : List (StoreCall S T)} {x : StoreChoice}
  {o : Outcome (SettingsStore S T) (StoreCall S T)}

/-- A flush goes on with its own steps. -/
theorem updates_next (ho : c.exec C x s = some o) (hc : c.updates = false) :
    ∀ k ∈ o.next, k.updates = false := by
  intro k hk
  cases c with
  | change | markDirty | notifyOne => cases hc
  | _ =>
    simp only [StoreCall.exec, done, andThen] at ho
    (repeat' split at ho) <;> cases ho <;> simp only [List.mem_cons, List.not_mem_nil, or_false] at hk <;>
      (try rcases hk with rfl | rfl) <;> rfl

/-- A call starts and aborts no task, and takes no snapshot but that of the settings in place. -/
theorem exec_alone (ho : c.exec C x s = some o) : o.spawn = [] ∧ o.abort = [] ∧
    (o.shared.history.snapshotted = s.history.snapshotted ∨
      o.shared.history.snapshotted = s.version) := by
  have hfinish (s : SettingsStore S T) (caller : FlushCaller) :
      (s.finish caller).history.snapshotted = s.history.snapshotted := by
    cases caller <;> rfl
  cases c with
  | takeSnapshot caller =>
    simp only [StoreCall.exec, done, andThen] at ho
    split at ho <;> cases ho
    · exact ⟨rfl, rfl, .inl (hfinish _ _)⟩
    · exact ⟨rfl, rfl, .inr rfl⟩
  | _ =>
    simp only [StoreCall.exec, done, andThen] at ho
    (repeat' split at ho) <;> cases ho <;> refine ⟨rfl, rfl, .inl ?_⟩ <;>
      first | rfl | exact hfinish _ _

/-- What a step of an update or of a flush keeps. -/
theorem Saved.exec (h : Saved C s (c :: rest)) (ho : c.exec C x s = some o) (hx : x ≠ .fail)
    (hturn : c.InTurn s) : Saved C o.shared (o.next ++ rest) := by
  cases c with
  | change f =>
    simp only [StoreCall.exec, done, andThen] at ho
    split at ho <;> cases ho
    · exact (h.tail rfl rfl).found
    · exact h.change (f s.inner)
  | markDirty k =>
    cases ho
    exact h.markDirty
  | notifyOne k =>
    cases ho
    exact h.notifyOne
  | awaitNotify =>
    simp only [StoreCall.exec, andThen] at ho
    split at ho <;> cases ho
    refine h.goOn _ false rfl ?_ rfl nofun ?_
    · simp [StoreCall.mark]
    · simp [StoreCall.caller, Holds, StoreCall.isDetached]
  | debounce =>
    simp only [StoreCall.exec, andThen] at ho
    split at ho
    · cases ho
      refine h.goOn _ s.notified rfl ?_ rfl nofun ?_
      · simp [StoreCall.mark]
      · simp [StoreCall.caller, Holds, StoreCall.isDetached]
    · split at ho <;> cases ho
      refine h.goOn _ false rfl ?_ rfl nofun ?_
      · simp [StoreCall.mark]
      · simp [StoreCall.caller, Holds, StoreCall.isDetached]
  | flushNow =>
    cases ho
    refine h.goOn _ s.notified rfl ?_ rfl nofun ?_
    · simp [StoreCall.mark]
    · simp [StoreCall.caller, Holds, StoreCall.isDetached, h.completed]
  | loadDirty caller =>
    have hcallers := h.callers (.loadDirty caller) List.mem_cons_self
    simp only [StoreCall.exec, done, andThen] at ho
    split at ho <;> cases ho
    · refine h.goOn _ s.notified rfl ?_ rfl nofun ?_
      · simp [StoreCall.mark]
      · simpa [StoreCall.caller, Holds, StoreCall.isDetached] using hcallers
    · rename_i hdirty
      refine (h.tail rfl rfl).finish fun t ht => ?_
      obtain rfl : caller = some t := ht
      obtain ⟨hflushing, hfound⟩ := hturn.resolve_left hdirty
      exact h.reflects_of_clear (by simpa using hdirty) hflushing (hcallers t rfl) hfound
  | swapDirty caller =>
    have hcallers := h.callers (.swapDirty caller) List.mem_cons_self
    simp only [StoreCall.exec, done, andThen] at ho
    split at ho
    · cases ho
    · rename_i hflushing
      split at ho <;> cases ho
      · exact h.swapDirty (by simpa using hflushing)
      · rename_i hdirty
        refine (h.tail rfl rfl).finish fun t ht => ?_
        obtain rfl : caller = some t := ht
        exact h.reflects_of_clear (by simpa using hdirty) (by simpa using hflushing)
          (hcallers t rfl) (hturn.resolve_left hdirty)
  | takeSnapshot caller =>
    cases x with
    | fail => exact absurd rfl hx
    | tick | timeout =>
      cases ho
      exact h.takeSnapshot
  | createDirAll caller text =>
    have hcallers := h.callers (.createDirAll caller text) List.mem_cons_self
    have hholds := h.holds (.createDirAll caller text) List.mem_cons_self
    cases x with
    | fail => exact absurd rfl hx
    | tick | timeout =>
      cases ho
      refine h.goOn _ s.notified rfl ?_ rfl nofun fun k hk => ?_
      · simp [StoreCall.mark]
      · rw [List.mem_singleton.1 hk]
        exact ⟨hcallers, hholds, rfl⟩
  | writeTmp caller text =>
    cases x with
    | fail => exact absurd rfl hx
    | tick | timeout =>
      cases ho
      exact h.writeTmp
  | renameTmp caller =>
    cases x with
    | fail => exact absurd rfl hx
    | tick | timeout =>
      cases ho
      exact h.renameTmp
  | detachedWrite text => cases h.attached (.detachedWrite text) List.mem_cons_self
  | detachedRename => cases h.attached .detachedRename List.mem_cons_self

/-- A file that loads is never older than the first snapshot. -/
structure Kept (C : SettingsCodec S T) (loads : Bool) (p : StorePool S T) : Prop where
  cancellable : ∀ t ∈ p.tasks, t.cancellable = true → ∀ c ∈ t.stack, c.updates = false
  saved : Saved C p.shared (calls p.tasks)
  loaded : loads = true → 0 < p.shared.history.snapshotted

theorem kept_step {loads : Bool} {p p' : StorePool S T} {l : StoreLabel S} (h : Kept C loads p)
    (hl : FlushesInTurn p l) (hstep : step C p l = some p') : Kept C loads p' := by
  cases l with
  | run i x =>
    obtain ⟨t, c, rest, o, ht, -, hc, ho, rfl⟩ := Semantics.step_run_eq_some.1 hstep
    obtain ⟨hspawn, habort, hsnapshotted⟩ := exec_alone ho
    obtain ⟨hx, hturn⟩ := hl
    rw [ht, Option.bind_some, hc] at hturn
    have hpools := calls_perm_remaining (x := x) (ρ := StoreRequest S) (ε := Empty) ht hc
    have hnow := h.saved.perm hpools.1
    refine ⟨fun u hu hcan k hk => ?_, ?_, fun hloads => ?_⟩
    · rw [Pool.resume, habort, hspawn, List.append_nil] at hu
      rcases List.mem_or_eq_of_mem_set hu with hu | rfl
      · exact h.cancellable u hu hcan k hk
      · have hold := h.cancellable t (List.mem_of_getElem? ht) hcan
        rw [hc] at hold
        rcases List.mem_append.1 hk with hk | hk
        · exact updates_next ho (hold c List.mem_cons_self) k hk
        · exact hold k (List.mem_cons_of_mem _ hk)
    · have hnext := hnow.exec ho hx (hturn c rfl)
      refine hnext.perm ((hpools.2 o).trans ?_).symm
      rw [hspawn, calls_nil, List.append_nil]
    · rcases hsnapshotted with heq | heq
      · exact heq ▸ h.loaded hloads
      · exact heq ▸ h.saved.version_pos
  | wake i =>
    obtain ⟨t, ht, -, rfl⟩ := (Semantics.step_wake_eq_some (S := semantics C)).1 hstep
    refine ⟨fun u hu hcan => ?_, ?_, h.loaded⟩
    · rcases List.mem_or_eq_of_mem_set hu with hu | rfl
      · exact h.cancellable u hu hcan
      · exact h.cancellable t (List.mem_of_getElem? ht) hcan
    · rw [calls_wake ht]
      exact h.saved
  | start q =>
    obtain ⟨s, t, hq, rfl⟩ := (Semantics.step_start_eq_some (S := semantics C)).1 hstep
    cases hq
    refine ⟨fun u hu hcan => ?_, ?_, h.loaded⟩
    · rcases List.mem_append.1 hu with hu | hu
      · exact h.cancellable u hu hcan
      · rw [List.mem_singleton.1 hu] at hcan ⊢
        cases q with
        | update f => cases hcan
        | flushNow cancellable =>
          intro c hc
          rw [List.mem_singleton.1 hc]
          rfl
    · rw [calls_append, calls_cons, calls_nil, List.append_nil]
      cases q with
      | update f =>
        have hnew := h.saved.started (c := .change f) rfl rfl rfl rfl
        exact hnew.perm (List.perm_append_singleton _ _).symm
      | flushNow cancellable =>
        have hnew := h.saved.started (c := .flushNow) rfl rfl rfl rfl
        exact hnew.perm (List.perm_append_singleton _ _).symm
  | drop i =>
    obtain ⟨t, ht, rfl⟩ := Option.map_eq_some_iff.1 hstep
    obtain ⟨ht, hdrop⟩ := Option.filter_eq_some_iff.1 ht
    have hwrites := hl t ht
    have hcan : t.cancellable = true := by
      rw [Bool.and_eq_true] at hdrop
      exact hdrop.1
    have hupdates := h.cancellable t (List.mem_of_getElem? ht) hcan
    have hdetached : t.stack.head?.elim [] StoreCall.detached = [] := by
      cases hc : t.stack with
      | nil => rfl
      | cons c rest =>
        have hc := hwrites c (hc ▸ List.mem_cons_self)
        cases c <;> first | rfl | cases hc
    have hlock : (p.shared.flushing && !t.stack.any StoreCall.writes) = p.shared.flushing := by
      rw [List.any_eq_false.2 fun c hc => by simp [hwrites c hc]]
      exact Bool.and_true _
    refine ⟨fun u hu hcan => ?_, ?_, h.loaded⟩
    · rcases List.mem_or_eq_of_mem_set hu with hu | rfl
      · exact h.cancellable u hu hcan
      · cases hcan
    · obtain ⟨others, h₁, h₂⟩ := calls_set_perm ht
      have hothers := (h.saved.perm h₁).dropped fun c hc => ⟨hupdates c hc, hwrites c hc⟩
      rw [dropTask, hlock, hdetached]
      exact hothers.perm (h₂ { t with stack := [], cancellable := false }).symm
  | env e => cases e

end Exec

theorem kept_start (C : SettingsCodec S T) (default : S) (file : FileRead T) :
    Kept C (file.loads C) (start C default file) := by
  -- the number of the snapshot the file holds: none when it could not be read
  have hstore (v : S) (text : T) (n : ℕ) (hn : n ≤ 1) (htext : 0 < n → C.decode text = some v) :
      Saved C (SettingsStore.mk v false false false none (some text) ⟨[v], n, ⟨0, 0⟩, []⟩)
        [.awaitNotify] := by
    refine ⟨rfl, hn, List.nodup_nil, ?_, rfl, fun k hk _ hle => absurd hle (Nat.not_le.2 hk),
      ⟨Nat.zero_le _, Nat.zero_le _, nofun, by simp⟩, ?_, ?_, fun _ hpos => ?_, nofun, ?_⟩
    · simp [StoreCall.mark]
    · simp [StoreCall.caller]
    · simp [Holds]
    · exact ⟨0, v, Nat.le_antisymm hn hpos, rfl, htext hpos⟩
    · simp [StoreCall.isDetached]
  refine ⟨fun t ht hcan => ?_, ?_, fun hloads => ?_⟩
  · rw [List.mem_singleton.1 ht] at hcan
    cases hcan
  · cases file with
    | content text =>
      cases hparsed : C.decode text with
      | none =>
        simp only [start, loadOrDefault, hparsed]
        exact hstore default text 0 (Nat.zero_le _) nofun
      | some parsed =>
        simp only [start, loadOrDefault, hparsed]
        exact hstore parsed text 1 (Nat.le_refl _) fun _ => hparsed
    | notFound => exact hstore default _ 1 (Nat.le_refl _) fun _ => C.decode_encode default
    | unreadable text => exact hstore default text 0 (Nat.zero_le _) nofun
  · cases file with
    | content text =>
      obtain ⟨parsed, hparsed⟩ := Option.isSome_iff_exists.1 hloads
      simp [start, loadOrDefault, hparsed]
    | notFound => exact Nat.one_pos
    | unreadable text => cases hloads

/-- In a run whose flushes do not overtake each other `flush_now` returns on a file that includes
every completed update, and the file of a quiet store reads as the settings in memory. -/
theorem flushNow_saves [DecidableEq S] (C : SettingsCodec S T) (default : S) (file : FileRead T)
    {ls : List (StoreLabel S)} {p : StorePool S T} (h : Run C default file ls p)
    (hturns : Transition.Along (step C) FlushesInTurn (start C default file) ls) :
    (∀ r ∈ p.shared.history.returned, p.shared.Reflects C r.1 r.2) ∧
      (file.loads C = true → p.shared.dirty = false → p.shared.flushing = false →
        (∀ k, .markDirty k ∉ calls p.tasks) →
          p.shared.file.bind C.decode = some p.shared.inner) := by
  have hkept : Kept C (file.loads C) p :=
    Transition.invariant_of_run (fun _ _ _ hI hl hstep => kept_step hI hl hstep)
      (kept_start C default file) hturns h
  exact ⟨hkept.saved.returned, fun hloads hdirty hflushing hmarked =>
    hkept.saved.inner_eq hdirty hflushing hmarked (hkept.loaded hloads)⟩

/-- Settings of one number, which is its own text. -/
def secondsCodec : SettingsCodec ℕ ℕ := ⟨id, some, fun _ => rfl⟩

def updateThenFlush : List (StoreLabel ℕ) :=
  .start (.update fun _ => 30) :: [.run 1 .tick, .run 1 .tick, .run 1 .tick] ++
    .start (.flushNow false) :: List.replicate 7 (.run 2 .tick)

theorem flushNow_saves_update :
    Transition.Along (step secondsCodec) FlushesInTurn (start secondsCodec 0 (.content 5))
        updateThenFlush ∧
      ∃ p, Run secondsCodec 0 (.content 5) updateThenFlush p ∧
        (∀ r ∈ p.shared.history.returned, p.shared.Reflects secondsCodec r.1 r.2) ∧
        p.shared.history.returned = [(⟨2, 0⟩, some 30)] := by
  have hturns : Transition.Along (step secondsCodec) FlushesInTurn
      (start secondsCodec 0 (.content 5)) updateThenFlush := by decide
  have hrun : Run secondsCodec 0 (.content 5) updateThenFlush (Transition.reached
      (step secondsCodec) (start secondsCodec 0 (.content 5)) updateThenFlush (by decide)) :=
    Transition.run_reached _ _
  exact ⟨hturns, _, hrun, (flushNow_saves secondsCodec 0 (.content 5) hrun hturns).1,
    by decide⟩

/-- Nothing fails and nothing is dropped. -/
def succeeds : StoreLabel S → Bool
  | .run _ .fail | .drop _ => false
  | _ => true

/-- The writer has cleared the flag, and the file is still the old one. -/
def flushOvertakes : List (StoreLabel ℕ) :=
  .start (.update fun _ => 30) :: [.run 1 .tick, .run 1 .tick, .run 1 .tick] ++
    [.run 0 .tick, .run 0 .timeout, .run 0 .tick, .run 0 .tick] ++
      [.start (.flushNow false), .run 2 .tick, .run 2 .tick]

def overlooked : StorePool ℕ ℕ :=
  Transition.reached (step secondsCodec) (start secondsCodec 0 (.content 5)) flushOvertakes
    (by decide +kernel)

theorem not_flushNow_reflects : ¬∀ (C : SettingsCodec ℕ ℕ) (default : ℕ) (file : FileRead ℕ)
    (ls : List (StoreLabel ℕ)) (p : StorePool ℕ ℕ), Run C default file ls p →
    (∀ l ∈ ls, succeeds l = true) →
    ∀ r ∈ p.shared.history.returned, p.shared.Reflects C r.1 r.2 := by
  intro h
  have hrun : Run secondsCodec 0 (.content 5) flushOvertakes overlooked :=
    Transition.run_reached _ _
  have hversions : overlooked.shared.history.versions = [5, 30] := by decide
  have hreturned : overlooked.shared.history.returned = [(⟨2, 0⟩, some 5)] := by decide
  rcases h _ _ _ _ _ hrun (by decide) (⟨2, 0⟩, some 5) (by simp [hreturned]) with
    hzero | ⟨k, v, hk, hv, hfile⟩
  · cases hzero
  · obtain rfl : 5 = v := Option.some_inj.1 hfile
    rw [hversions] at hv
    match k with
    | 0 => exact absurd hk (by decide)
    | 1 => cases hv
    | k + 2 => cases hv

end SettingsStore

end Waywallen
