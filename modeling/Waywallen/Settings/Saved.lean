import Waywallen.Settings.Store

/-!
# What is on disk

`flush_now` returns at once when it finds the flag clear. The flag is cleared before the file is
written, so it may return while another flush is still to rename its file; and a change that has
not set the flag yet may have been found in place by an update that has completed. Apart from that
the file reflects what had completed when `flush_now` was called.
-/

namespace Waywallen

open TaskPool

variable {S T : Type}

/-- The number of the settings that a change is still to be announced for. -/
def StoreCall.mark : StoreCall S T → Option ℕ
  | markDirty k | notifyOne k => some k
  | _ => none

def StoreCall.caller : StoreCall S T → FlushCaller
  | loadDirty caller | swapDirty caller | takeSnapshot caller | createDirAll caller _
  | writeTmp caller _ | renameTmp caller => caller
  | _ => none

def StoreCall.isDetached : StoreCall S T → Bool
  | detachedWrite _ | detachedRename => true
  | _ => false

/-- The calls of an update, which is never interrupted. -/
def StoreCall.updates : StoreCall S T → Bool
  | change _ | markDirty _ | notifyOne _ => true
  | _ => false

namespace SettingsStore

/-- The file reads as settings that include what the ticket covers, if it covers anything. -/
def Reflects (C : SettingsCodec S T) (s : SettingsStore S T) (ticket : FlushTicket)
    (file : Option T) : Prop :=
  max ticket.changed ticket.found = 0 ∨ ∃ k v, max ticket.changed ticket.found ≤ k + 1 ∧
    s.history.versions[k]? = some v ∧ file.bind C.decode = some v

/-- The text reads as the settings of the last snapshot. -/
def Snapshotted (C : SettingsCodec S T) (s : SettingsStore S T) (text : Option T) : Prop :=
  ∃ k v, s.history.snapshotted = k + 1 ∧ s.history.versions[k]? = some v ∧
    text.bind C.decode = some v

/-- The changes the ticket covers have all set the flag. -/
structure Settled (s : SettingsStore S T) (cs : List (StoreCall S T)) (ticket : FlushTicket) :
    Prop where
  changed_le : ticket.changed ≤ s.version
  found_le : ticket.found ≤ s.version
  changed_ne : ticket.changed ≠ 1
  marked : .markDirty ticket.changed ∉ cs

/-- What a call that writes the file has in its hands. -/
def Holds (C : SettingsCodec S T) (s : SettingsStore S T) : StoreCall S T → Prop
  | .createDirAll caller text | .writeTmp caller text => s.Snapshotted C (some text) ∧
      ∀ t ∈ caller, max t.changed t.found ≤ s.history.snapshotted
  | .renameTmp caller => s.Snapshotted C s.tmp ∧
      ∀ t ∈ caller, max t.changed t.found ≤ s.history.snapshotted
  | _ => True

/-- A change after the last snapshot has set the flag or is about to, and what is written is the
last snapshot. -/
structure Saved (C : SettingsCodec S T) (s : SettingsStore S T) (cs : List (StoreCall S T)) :
    Prop where
  inner : s.history.versions.getLast? = some s.inner
  snapshotted_le : s.history.snapshotted ≤ s.version
  marks : (cs.filterMap StoreCall.mark).Nodup
  mark_le : ∀ c ∈ cs, ∀ k ∈ c.mark, 1 < k ∧ k ≤ s.version
  lock : cs.countP StoreCall.writes = if s.flushing then 1 else 0
  flagged : ∀ k, 1 < k → s.history.snapshotted < k → k ≤ s.version →
    s.dirty = true ∨ .markDirty k ∈ cs ∨ ∃ caller, .takeSnapshot caller ∈ cs
  completed : s.Settled cs s.history.completed
  callers : ∀ c ∈ cs, ∀ t ∈ c.caller, s.Settled cs t
  holds : ∀ c ∈ cs, s.Holds C c
  file : s.flushing = false → 0 < s.history.snapshotted → s.Snapshotted C s.file
  returned : ∀ r ∈ s.history.returned, s.Reflects C r.1 r.2
  attached : ∀ c ∈ cs, c.isDetached = false

variable {C : SettingsCodec S T} {s : SettingsStore S T} {c : StoreCall S T}
  {cs rest next : List (StoreCall S T)}

theorem Saved.version_pos {cs : List (StoreCall S T)} (h : Saved C s cs) : 0 < s.version :=
  List.length_pos_of_mem (List.mem_of_getLast? h.inner)

/-- The changes that a ticket covers stay marked. -/
theorem Settled.keep {s' : SettingsStore S T} {cs' : List (StoreCall S T)} {t : FlushTicket}
    (h : s.Settled cs t) (hversion : s.version ≤ s'.version)
    (hmark : ∀ k, .markDirty k ∈ cs' → k ≤ s.version → .markDirty k ∈ cs) : s'.Settled cs' t :=
  ⟨Nat.le_trans h.changed_le hversion, Nat.le_trans h.found_le hversion, h.changed_ne,
    fun hm => h.marked (hmark _ hm h.changed_le)⟩

theorem Saved.perm {cs' : List (StoreCall S T)} (h : Saved C s cs) (hperm : cs.Perm cs') :
    Saved C s cs' where
  inner := h.inner
  snapshotted_le := h.snapshotted_le
  marks := (hperm.filterMap _).nodup_iff.1 h.marks
  mark_le c hc := h.mark_le c (hperm.mem_iff.2 hc)
  lock := hperm.countP_eq _ ▸ h.lock
  flagged k hk hlast hle := by
    simp only [← hperm.mem_iff]
    exact h.flagged k hk hlast hle
  completed := h.completed.keep (Nat.le_refl _) fun _ hm _ => hperm.mem_iff.2 hm
  callers c hc t ht :=
    (h.callers c (hperm.mem_iff.2 hc) t ht).keep (Nat.le_refl _) fun _ hm _ => hperm.mem_iff.2 hm
  holds c hc := h.holds c (hperm.mem_iff.2 hc)
  file := h.file
  returned := h.returned
  attached c hc := h.attached c (hperm.mem_iff.2 hc)

theorem holds_of_not_writes (h : c.writes = false) : s.Holds C c := by
  cases c <;> trivial

/-- A task begins with a call that carries nothing. -/
theorem Saved.started (h : Saved C s cs) (hmark : c.mark = none) (hwrites : c.writes = false)
    (hcaller : c.caller = none) (hdetached : c.isDetached = false) : Saved C s (c :: cs) := by
  have hsettled {t : FlushTicket} (ht : s.Settled cs t) : s.Settled (c :: cs) t := by
    refine ht.keep (Nat.le_refl _) fun k hm _ => ?_
    rcases List.mem_cons.1 hm with rfl | hm
    · cases hmark
    · exact hm
  refine ⟨h.inner, h.snapshotted_le, ?_, List.forall_mem_cons.2 ⟨?_, h.mark_le⟩, ?_,
    fun k hk hlast hle => ?_, hsettled h.completed,
    List.forall_mem_cons.2 ⟨?_, fun k hk t ht => hsettled (h.callers k hk t ht)⟩,
    List.forall_mem_cons.2 ⟨holds_of_not_writes hwrites, h.holds⟩, h.file, h.returned,
    List.forall_mem_cons.2 ⟨hdetached, h.attached⟩⟩
  · rw [List.filterMap_cons_none hmark]
    exact h.marks
  · rw [hmark]
    exact fun _ hm => nomatch hm
  · rw [List.countP_cons_of_neg (by simp [hwrites])]
    exact h.lock
  · rcases h.flagged k hk hlast hle with hd | hm | ⟨caller, hm⟩
    · exact .inl hd
    · exact .inr (.inl (List.mem_cons_of_mem _ hm))
    · exact .inr (.inr ⟨caller, List.mem_cons_of_mem _ hm⟩)
  · rw [hcaller]
    exact fun _ hm => nomatch hm

/-- While a call writes the file no other one does. -/
theorem Saved.not_writes (h : Saved C s (c :: rest)) (hc : c.writes = true) :
    s.flushing = true ∧ ∀ k ∈ rest, k.writes = false := by
  have hlock := h.lock
  rw [List.countP_cons_of_pos hc] at hlock
  cases hf : s.flushing with
  | false =>
    rw [hf] at hlock
    cases hlock
  | true =>
    rw [hf, if_pos rfl] at hlock
    refine ⟨rfl, fun k hk => ?_⟩
    have hzero : rest.countP StoreCall.writes = 0 := by omega
    simpa using List.countP_eq_zero.1 hzero k hk

/-- With the flag clear and no snapshot about to be taken, what a ticket covers is part of the last
snapshot, unless an update has found it in place. -/
theorem Saved.covered (h : Saved C s cs) {t : FlushTicket} (ht : s.Settled cs t)
    (hdirty : s.dirty = false) (hsnap : ∀ caller, .takeSnapshot caller ∉ cs)
    (hfound : t.found ≤ s.history.snapshotted) :
    max t.changed t.found ≤ s.history.snapshotted ∨ max t.changed t.found = 0 := by
  by_contra hnot
  have hne := ht.changed_ne
  have hflag := h.flagged t.changed (by omega) (by omega) ht.changed_le
  rw [hdirty] at hflag
  rcases hflag with hflag | hflag | ⟨caller, hflag⟩
  · cases hflag
  · exact ht.marked hflag
  · exact hsnap caller hflag

/-- The file that reads as the last snapshot reflects what the snapshot includes. -/
theorem Snapshotted.reflects {text : Option T} (h : s.Snapshotted C text) {t : FlushTicket}
    (ht : max t.changed t.found ≤ s.history.snapshotted) : s.Reflects C t text := by
  obtain ⟨k, v, hk, hv, htext⟩ := h
  exact .inr ⟨k, v, hk ▸ ht, hv, htext⟩

theorem Saved.finish {caller : FlushCaller} (h : Saved C s cs)
    (hcaller : ∀ t ∈ caller, s.Reflects C t s.file) : Saved C (s.finish caller) cs := by
  cases caller with
  | none => exact h
  | some t =>
    refine ⟨h.inner, h.snapshotted_le, h.marks, h.mark_le, h.lock, h.flagged,
      ⟨h.completed.1, h.completed.2, h.completed.3, h.completed.4⟩, fun c hc t ht => ?_,
      fun c hc => ?_, h.file, fun r hr => ?_, h.attached⟩
    · exact (h.callers c hc t ht).keep (Nat.le_refl _) fun _ hm _ => hm
    · have hholds := h.holds c hc
      cases c <;> exact hholds
    · rcases List.mem_append.1 hr with hr | hr
      · exact h.returned r hr
      · rw [List.mem_singleton.1 hr]
        exact hcaller t rfl

/-- A call that leaves the store as it is, up to the notification, and goes on with others. -/
theorem Saved.goOn (h : Saved C s (c :: rest)) (next : List (StoreCall S T)) (notified : Bool)
    (hmark : c.mark = none) (hmarks : ∀ k ∈ next, k.mark = none)
    (hwrites : next.countP StoreCall.writes = if c.writes then 1 else 0)
    (hsnap : ∀ caller, c ≠ .takeSnapshot caller)
    (hnext : ∀ k ∈ next, (∀ t ∈ k.caller, s.Settled (c :: rest) t) ∧ s.Holds C k ∧
      k.isDetached = false) :
    Saved C { s with notified } (next ++ rest) := by
  have hnone : next.filterMap StoreCall.mark = [] := List.filterMap_eq_nil_iff.2 hmarks
  have hkeep {k : ℕ} (hk : .markDirty k ∈ next ++ rest) : .markDirty k ∈ c :: rest := by
    rcases List.mem_append.1 hk with hk | hk
    · cases hmarks _ hk
    · exact List.mem_cons_of_mem _ hk
  have hsettled {t : FlushTicket} (ht : s.Settled (c :: rest) t) :
      Settled { s with notified } (next ++ rest) t :=
    ht.keep (Nat.le_refl _) fun _ hk _ => hkeep hk
  refine ⟨h.inner, h.snapshotted_le, ?_, fun k hk => ?_, ?_, fun k hk hlast hle => ?_,
    hsettled h.completed, fun k hk t ht => ?_, fun k hk => ?_, h.file, h.returned, fun k hk => ?_⟩
  · have hmarks := h.marks
    rw [List.filterMap_cons_none hmark] at hmarks
    rw [List.filterMap_append, hnone]
    exact hmarks
  · rcases List.mem_append.1 hk with hk | hk
    · rw [hmarks k hk]
      exact fun _ hm => nomatch hm
    · exact h.mark_le k (List.mem_cons_of_mem _ hk)
  · have hlock := h.lock
    rw [List.countP_cons] at hlock
    rw [List.countP_append, hwrites, Nat.add_comm]
    exact hlock
  · rcases h.flagged k hk hlast hle with hd | hm | ⟨caller, hm⟩
    · exact .inl hd
    · rcases List.mem_cons.1 hm with rfl | hm
      · cases hmark
      · exact .inr (.inl (List.mem_append_right _ hm))
    · rcases List.mem_cons.1 hm with hc | hm
      · exact absurd hc.symm (hsnap caller)
      · exact .inr (.inr ⟨caller, List.mem_append_right _ hm⟩)
  · rcases List.mem_append.1 hk with hk | hk
    · exact hsettled ((hnext k hk).1 t ht)
    · exact hsettled (h.callers k (List.mem_cons_of_mem _ hk) t ht)
  · have hholds : s.Holds C k := by
      rcases List.mem_append.1 hk with hk | hk
      · exact (hnext k hk).2.1
      · exact h.holds k (List.mem_cons_of_mem _ hk)
    cases k <;> exact hholds
  · rcases List.mem_append.1 hk with hk | hk
    · exact (hnext k hk).2.2
    · exact h.attached k (List.mem_cons_of_mem _ hk)

/-- A flush ends because the flag is clear: the file reflects what its caller waits for. -/
theorem Saved.reflects_of_clear (h : Saved C s cs) (hdirty : s.dirty = false)
    (hflushing : s.flushing = false) {t : FlushTicket} (ht : s.Settled cs t)
    (hfound : t.found ≤ s.history.snapshotted) : s.Reflects C t s.file := by
  have hsnap (caller : FlushCaller) : .takeSnapshot caller ∉ cs := fun hmem => by
    have hlock := h.lock
    rw [hflushing] at hlock
    exact List.countP_eq_zero.1 hlock _ hmem rfl
  rcases h.covered ht hdirty hsnap hfound with hle | hzero
  · by_cases hpos : 0 < s.history.snapshotted
    · exact (h.file hflushing hpos).reflects hle
    · exact .inl (by omega)
  · exact .inl hzero

/-- With the flag clear, nothing being written and every change marked, the last snapshot is of the
settings in memory. -/
theorem Saved.inner_eq {cs : List (StoreCall S T)} (h : Saved C s cs) (hdirty : s.dirty = false)
    (hflushing : s.flushing = false) (hmarked : ∀ k, .markDirty k ∉ cs)
    (hloaded : 0 < s.history.snapshotted) : s.file.bind C.decode = some s.inner := by
  have hsnap (caller : FlushCaller) : .takeSnapshot caller ∉ cs := fun hmem => by
    have hlock := h.lock
    rw [hflushing] at hlock
    exact List.countP_eq_zero.1 hlock _ hmem rfl
  have hlast : s.version ≤ s.history.snapshotted := by
    by_contra hlt
    rcases h.flagged s.version (by omega) (by omega) (Nat.le_refl _) with hd | hm | ⟨caller, hm⟩
    · exact absurd (hdirty.symm.trans hd) (by decide)
    · exact hmarked _ hm
    · exact hsnap caller hm
  obtain ⟨k, v, hk, hv, hfile⟩ := h.file hflushing hloaded
  have hversion : s.history.versions.length - 1 = k := by
    have heq := Nat.le_antisymm hlast h.snapshotted_le
    rw [version, hk] at heq
    omega
  rw [hfile, ← hv, ← h.inner, List.getLast?_eq_getElem?, hversion]

section Changes

variable {f : S → S} {k : ℕ} {caller : FlushCaller}

theorem Saved.tail (h : Saved C s (c :: rest)) (hmark : c.mark = none) (hwrites : c.writes = false) :
    Saved C s rest := by
  refine h.goOn [] s.notified hmark (fun _ hk => absurd hk List.not_mem_nil)
    (by rw [hwrites]; rfl) (fun caller hc => ?_) fun _ hk => absurd hk List.not_mem_nil
  rw [hc] at hwrites
  cases hwrites

/-- Calls that are not part of an update and do not write can be left out. -/
theorem Saved.dropped {cs others : List (StoreCall S T)} (h : Saved C s (cs ++ others))
    (hcs : ∀ c ∈ cs, c.updates = false ∧ c.writes = false) : Saved C s others := by
  induction cs with
  | nil => exact h
  | cons c cs ih =>
    obtain ⟨hupdates, hwrites⟩ := hcs c List.mem_cons_self
    refine ih (h.tail ?_ hwrites) fun k hk => hcs k (List.mem_cons_of_mem _ hk)
    cases c <;> first | rfl | cases hupdates

/-- An update that changes nothing completes at once. -/
theorem Saved.found (h : Saved C s cs) :
    Saved C { s with history.completed.found := max s.history.completed.found s.version } cs := by
  obtain ⟨h₁, h₂, h₃, h₄⟩ := h.completed
  refine ⟨h.inner, h.snapshotted_le, h.marks, h.mark_le, h.lock, h.flagged,
    ⟨h₁, Nat.max_le.2 ⟨h₂, Nat.le_refl _⟩, h₃, h₄⟩, fun k hk t ht => ?_, fun k hk => ?_, h.file,
    h.returned, h.attached⟩
  · exact (h.callers k hk t ht).keep (Nat.le_refl _) fun _ hm _ => hm
  · have hholds := h.holds k hk
    cases k <;> exact hholds

/-- The settings change: the new version is still to be announced. -/
theorem Saved.change (h : Saved C s (.change f :: rest)) (v : S) :
    Saved C { s with inner := v, history.versions := s.history.versions ++ [v] }
      (.markDirty (s.version + 1) :: rest) := by
  set s' : SettingsStore S T :=
    { s with inner := v, history.versions := s.history.versions ++ [v] } with hs'
  have hversion : s'.version = s.version + 1 := List.length_append
  have hgrow : s.version ≤ s'.version := hversion ▸ Nat.le_succ s.version
  have hpos := h.version_pos
  have hold {k : ℕ} {w : S} (hw : s.history.versions[k]? = some w) :
      s'.history.versions[k]? = some w :=
    List.getElem?_append_left (List.getElem?_eq_some_iff.1 hw).1 ▸ hw
  have hsnap {text : Option T} (hw : s.Snapshotted C text) : s'.Snapshotted C text := by
    obtain ⟨k, w, hk, hw, htext⟩ := hw
    exact ⟨k, w, hk, hold hw, htext⟩
  have hnew {k : ℕ} (hk : k ≤ s.version) (hm : .markDirty k ∉ rest) :
      .markDirty k ∉ StoreCall.markDirty (s.version + 1) :: rest := by
    rw [List.mem_cons, StoreCall.markDirty.injEq]
    rintro (rfl | hmem)
    · exact absurd hk (Nat.not_succ_le_self _)
    · exact hm hmem
  have hsettled {t : FlushTicket} (ht : s.Settled (.change f :: rest) t) :
      s'.Settled (.markDirty (s.version + 1) :: rest) t :=
    ht.keep hgrow fun k hm hk =>
      List.mem_cons_of_mem _ (not_not.1 fun hnot => hnew hk hnot hm)
  have hrest (k : StoreCall S T) (hk : k ∈ rest) : k ∈ StoreCall.change f :: rest :=
    List.mem_cons_of_mem _ hk
  refine ⟨List.getLast?_concat, Nat.le_trans h.snapshotted_le hgrow, ?_,
    fun c hc k hk => ?_, h.lock, fun k hk hlast hle => ?_, hsettled h.completed,
    fun c hc t ht => ?_, fun c hc => ?_, fun hf hp => hsnap (h.file hf hp), fun r hr => ?_,
    fun c hc => ?_⟩
  · refine List.nodup_cons.2 ⟨fun hmem => ?_, h.marks⟩
    obtain ⟨c, hc, hk⟩ := List.mem_filterMap.1 hmem
    exact absurd (h.mark_le c (hrest c hc) _ hk).2 (Nat.not_succ_le_self _)
  · rw [hversion]
    rcases List.mem_cons.1 hc with rfl | hc
    · obtain rfl := Option.some_inj.1 hk
      exact ⟨Nat.succ_lt_succ hpos, Nat.le_refl _⟩
    · obtain ⟨hlt, hle⟩ := h.mark_le c (hrest c hc) k hk
      exact ⟨hlt, Nat.le_succ_of_le hle⟩
  · rw [hversion] at hle
    rcases Nat.lt_or_eq_of_le hle with hlt | rfl
    · rcases h.flagged k hk hlast (Nat.le_of_lt_succ hlt) with hd | hm | ⟨caller, hm⟩
      · exact .inl hd
      · refine .inr (.inl (List.mem_cons_of_mem _ ?_))
        simpa using hm
      · refine .inr (.inr ⟨caller, List.mem_cons_of_mem _ ?_⟩)
        simpa using hm
    · exact .inr (.inl List.mem_cons_self)
  · rcases List.mem_cons.1 hc with rfl | hc
    · cases ht
    · exact hsettled (h.callers c (hrest c hc) t ht)
  · rcases List.mem_cons.1 hc with rfl | hc
    · trivial
    · have hholds := h.holds c (hrest c hc)
      cases c <;> first | trivial | exact ⟨hsnap hholds.1, hholds.2⟩
  · rcases h.returned r hr with hzero | ⟨k, w, hk, hw, hfile⟩
    · exact .inl hzero
    · exact .inr ⟨k, w, hk, hold hw, hfile⟩
  · rcases List.mem_cons.1 hc with rfl | hc
    · rfl
    · exact h.attached c (hrest c hc)

theorem Saved.markDirty (h : Saved C s (.markDirty k :: rest)) :
    Saved C { s with dirty := true } (.notifyOne k :: rest) := by
  have hsub {c : StoreCall S T} (hc : c ∈ StoreCall.notifyOne k :: rest) :
      c = .notifyOne k ∨ c ∈ StoreCall.markDirty k :: rest :=
    (List.mem_cons.1 hc).imp id (List.mem_cons_of_mem _)
  have hsettled {t : FlushTicket} (ht : s.Settled (.markDirty k :: rest) t) :
      Settled { s with dirty := true } (.notifyOne k :: rest) t :=
    ht.keep (Nat.le_refl _) fun _ hm _ => (hsub hm).resolve_left (by simp)
  refine ⟨h.inner, h.snapshotted_le, h.marks, fun c hc => ?_, h.lock, fun _ _ _ _ => .inl rfl,
    hsettled h.completed, fun c hc t ht => ?_, fun c hc => ?_, h.file, h.returned, fun c hc => ?_⟩
  · rcases hsub hc with rfl | hc
    · exact h.mark_le (.markDirty k) List.mem_cons_self
    · exact h.mark_le c hc
  · rcases hsub hc with rfl | hc
    · cases ht
    · exact hsettled (h.callers c hc t ht)
  · rcases hsub hc with rfl | hc
    · trivial
    · have hholds := h.holds c hc
      cases c <;> exact hholds
  · rcases hsub hc with rfl | hc
    · rfl
    · exact h.attached c hc

/-- The update completes: its change has set the flag. -/
theorem Saved.notifyOne (h : Saved C s (.notifyOne k :: rest)) :
    Saved C { s with notified := true,
                     history.completed.changed := max s.history.completed.changed k } rest := by
  obtain ⟨hk, hrest⟩ := List.nodup_cons.1 h.marks
  obtain ⟨hlt, hle⟩ := h.mark_le (.notifyOne k) List.mem_cons_self k rfl
  have hmem {c : StoreCall S T} (hc : c ∈ rest) : c ∈ StoreCall.notifyOne k :: rest :=
    List.mem_cons_of_mem _ hc
  have hown : .markDirty k ∉ rest := fun hm => hk (List.mem_filterMap.2 ⟨_, hm, rfl⟩)
  obtain ⟨h₁, h₂, h₃, h₄⟩ := h.completed
  refine ⟨h.inner, h.snapshotted_le, hrest, fun c hc => h.mark_le c (hmem hc), h.lock,
    fun j hj hlast hle => ?_, ⟨Nat.max_le.2 ⟨h₁, hle⟩, h₂, ?_, ?_⟩, fun c hc t ht => ?_,
    fun c hc => ?_, h.file, h.returned, fun c hc => h.attached c (hmem hc)⟩
  · simpa using h.flagged j hj hlast hle
  · dsimp only
    omega
  · dsimp only
    rcases Nat.le_total s.history.completed.changed k with hmax | hmax
    · rwa [Nat.max_eq_right hmax]
    · rw [Nat.max_eq_left hmax]
      exact fun hm => h₄ (hmem hm)
  · exact (h.callers c (hmem hc) t ht).keep (Nat.le_refl _) fun _ hm _ => hmem hm
  · have hholds := h.holds c (hmem hc)
    cases c <;> exact hholds

/-- The flag is cleared under the lock. -/
theorem Saved.swapDirty (h : Saved C s (.swapDirty caller :: rest))
    (hflushing : s.flushing = false) :
    Saved C { s with dirty := false, flushing := true } (.takeSnapshot caller :: rest) := by
  have hlock := h.lock
  rw [hflushing, List.countP_cons_of_neg (by simp [StoreCall.writes])] at hlock
  have hsub {c : StoreCall S T} (hc : c ∈ StoreCall.takeSnapshot caller :: rest) :
      c = .takeSnapshot caller ∨ c ∈ StoreCall.swapDirty caller :: rest :=
    (List.mem_cons.1 hc).imp id (List.mem_cons_of_mem _)
  have hsettled {t : FlushTicket} (ht : s.Settled (.swapDirty caller :: rest) t) :
      Settled { s with dirty := false, flushing := true } (.takeSnapshot caller :: rest) t :=
    ht.keep (Nat.le_refl _) fun _ hm _ => (hsub hm).resolve_left (by simp)
  refine ⟨h.inner, h.snapshotted_le, h.marks, fun c hc => ?_, ?_,
    fun _ _ _ _ => .inr (.inr ⟨caller, List.mem_cons_self⟩), hsettled h.completed,
    fun c hc t ht => ?_, fun c hc => ?_, fun hf => (nomatch hf), h.returned, fun c hc => ?_⟩
  · rcases hsub hc with rfl | hc
    · exact fun _ hm => nomatch hm
    · exact h.mark_le c hc
  · rw [List.countP_cons_of_pos rfl, hlock]
    rfl
  · rcases hsub hc with rfl | hc
    · exact hsettled (h.callers (.swapDirty caller) List.mem_cons_self t ht)
    · exact hsettled (h.callers c hc t ht)
  · rcases hsub hc with rfl | hc
    · trivial
    · have hholds := h.holds c hc
      cases c <;> exact hholds
  · rcases hsub hc with rfl | hc
    · rfl
    · exact h.attached c hc

/-- A snapshot includes every change made so far. -/
theorem Saved.takeSnapshot (h : Saved C s (.takeSnapshot caller :: rest)) :
    Saved C { s with history.snapshotted := s.version }
      (.createDirAll caller (C.encode s.inner) :: rest) := by
  obtain ⟨hflushing, hrest⟩ := h.not_writes rfl
  have hsub {c : StoreCall S T} (hc : c ∈ StoreCall.createDirAll caller (C.encode s.inner) :: rest) :
      c = .createDirAll caller (C.encode s.inner) ∨ c ∈ rest := List.mem_cons.1 hc
  have hsettled {t : FlushTicket} (ht : s.Settled (.takeSnapshot caller :: rest) t) :
      Settled { s with history.snapshotted := s.version }
        (.createDirAll caller (C.encode s.inner) :: rest) t :=
    ht.keep (Nat.le_refl _) fun _ hm _ =>
      List.mem_cons_of_mem _ ((hsub hm).resolve_left (by simp))
  refine ⟨h.inner, Nat.le_refl _, h.marks, fun c hc => ?_, h.lock,
    fun k _ hlast hle => absurd hle (Nat.not_le.2 hlast), hsettled h.completed,
    fun c hc t ht => ?_, fun c hc => ?_, fun hf => ?_, h.returned, fun c hc => ?_⟩
  · rcases hsub hc with rfl | hc
    · exact fun _ hm => nomatch hm
    · exact h.mark_le c (List.mem_cons_of_mem _ hc)
  · rcases hsub hc with rfl | hc
    · exact hsettled (h.callers (.takeSnapshot caller) List.mem_cons_self t ht)
    · exact hsettled (h.callers c (List.mem_cons_of_mem _ hc) t ht)
  · rcases hsub hc with rfl | hc
    · refine ⟨⟨s.version - 1, s.inner, ?_, ?_, C.decode_encode _⟩, fun t ht => ?_⟩
      · exact (Nat.sub_add_cancel h.version_pos).symm
      · rw [← h.inner, List.getLast?_eq_getElem?]
        rfl
      · have hsettled := h.callers (.takeSnapshot caller) List.mem_cons_self t ht
        exact Nat.max_le.2 ⟨hsettled.1, hsettled.2⟩
    · exact holds_of_not_writes (hrest c hc)
  · exact absurd (hflushing.symm.trans hf) (by decide)
  · rcases hsub hc with rfl | hc
    · rfl
    · exact h.attached c (List.mem_cons_of_mem _ hc)

theorem Saved.writeTmp {text : T} (h : Saved C s (.writeTmp caller text :: rest)) :
    Saved C { s with tmp := some text } (.renameTmp caller :: rest) := by
  obtain ⟨hflushing, hrest⟩ := h.not_writes rfl
  have hsub {c : StoreCall S T} (hc : c ∈ StoreCall.renameTmp caller :: rest) :
      c = .renameTmp caller ∨ c ∈ rest := List.mem_cons.1 hc
  have hsettled {t : FlushTicket} (ht : s.Settled (.writeTmp caller text :: rest) t) :
      Settled { s with tmp := some text } (.renameTmp caller :: rest) t :=
    ht.keep (Nat.le_refl _) fun _ hm _ =>
      List.mem_cons_of_mem _ ((hsub hm).resolve_left (by simp))
  refine ⟨h.inner, h.snapshotted_le, h.marks, fun c hc => ?_, h.lock,
    fun k hk hlast hle => ?_, hsettled h.completed, fun c hc t ht => ?_, fun c hc => ?_,
    fun hf => ?_, h.returned, fun c hc => ?_⟩
  · rcases hsub hc with rfl | hc
    · exact fun _ hm => nomatch hm
    · exact h.mark_le c (List.mem_cons_of_mem _ hc)
  · simpa using h.flagged k hk hlast hle
  · rcases hsub hc with rfl | hc
    · exact hsettled (h.callers (.writeTmp caller text) List.mem_cons_self t ht)
    · exact hsettled (h.callers c (List.mem_cons_of_mem _ hc) t ht)
  · rcases hsub hc with rfl | hc
    · exact h.holds (.writeTmp caller text) List.mem_cons_self
    · exact holds_of_not_writes (hrest c hc)
  · exact absurd (hflushing.symm.trans hf) (by decide)
  · rcases hsub hc with rfl | hc
    · rfl
    · exact h.attached c (List.mem_cons_of_mem _ hc)

theorem Saved.renameTmp (h : Saved C s (.renameTmp caller :: rest)) :
    Saved C ({ s with file := s.tmp, tmp := none, flushing := false }.finish caller) rest := by
  obtain ⟨hflushing, hrest⟩ := h.not_writes rfl
  obtain ⟨htmp, hcaller⟩ := h.holds (.renameTmp caller) List.mem_cons_self
  have hmem {c : StoreCall S T} (hc : c ∈ rest) : c ∈ StoreCall.renameTmp caller :: rest :=
    List.mem_cons_of_mem _ hc
  have hsettled {t : FlushTicket} (ht : s.Settled (.renameTmp caller :: rest) t) :
      Settled { s with file := s.tmp, tmp := none, flushing := false } rest t :=
    ht.keep (Nat.le_refl _) fun _ hm _ => hmem hm
  refine Saved.finish ⟨h.inner, h.snapshotted_le, h.marks, fun c hc => h.mark_le c (hmem hc), ?_,
    fun k hk hlast hle => ?_, hsettled h.completed,
    fun c hc t ht => hsettled (h.callers c (hmem hc) t ht),
    fun c hc => holds_of_not_writes (hrest c hc), fun _ _ => htmp, h.returned,
    fun c hc => h.attached c (hmem hc)⟩ fun t ht => ?_
  · exact List.countP_eq_zero.2 fun c hc => by simp [hrest c hc]
  · simpa using h.flagged k hk hlast hle
  · exact Snapshotted.reflects (s := s) htmp (hcaller t ht)

end Changes

end SettingsStore

end Waywallen
