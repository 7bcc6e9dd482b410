import Waywallen.Bridge.Pool

/-!
# What a pool announces

The daemon relies on the order of what a pool sends: generations and points only grow, a frame
names a slot of the pool that was announced last and not torn down since, and a renderer that waits
for a slot waits for its last frame.
-/

namespace Waywallen

namespace PoolRecord

def sentGeneration : PoolRecord → Option ℕ
  | .sent (.bindBuffers bind) => some bind.generation
  | _ => none

def sentSeq : PoolRecord → Option ℕ
  | .sent (.frameReady frame) => some frame.seq
  | _ => none

def sentPoint : PoolRecord → Option ℕ
  | .sent (.frameReady frame) => some frame.releasePoint
  | _ => none

/-- The pool that is announced after the record, if it was `cur` before. -/
def announce (cur : Option BindBuffers) : PoolRecord → Option BindBuffers
  | .sent (.bindBuffers bind) => some bind
  | .tornDown => none
  | _ => cur

/-- The point of the slot's last frame after the record. -/
def frame (slot : ℕ) (cur : Option ℕ) : PoolRecord → Option ℕ
  | .sent (.frameReady frame) => if frame.imageIndex = slot then some frame.releasePoint else cur
  | .sent (.bindBuffers _) | .tornDown => none
  | _ => cur

end PoolRecord

open PoolRecord

/-- The last pool that was announced, unless it has been torn down. -/
def announced (records : List PoolRecord) : Option BindBuffers := records.foldl announce none

/-- The point of the last frame of the slot in the current pool. -/
def lastFrame (slot : ℕ) (records : List PoolRecord) : Option ℕ := records.foldl (frame slot) none

/-- The order that the daemon relies on. -/
structure Orderly (records : List PoolRecord) : Prop where
  generations : (records.filterMap sentGeneration).Pairwise (· < ·)
  seqs : (records.filterMap sentSeq).Pairwise (· < ·)
  releasePoints : (records.filterMap sentPoint).Pairwise (· < ·)
  frames : ∀ before f after, records = before ++ .sent (.frameReady f) :: after →
    ∃ bind, announced before = some bind ∧ f.imageIndex < bind.count
  waits : ∀ before slot point after, records = before ++ .waited slot point :: after →
    point = lastFrame slot before

section Append

variable {records : List PoolRecord} {r : PoolRecord}

theorem announced_append (records : List PoolRecord) (r : PoolRecord) :
    announced (records ++ [r]) = announce (announced records) r := by
  simp [announced, List.foldl_append]

theorem lastFrame_append (slot : ℕ) (records : List PoolRecord) (r : PoolRecord) :
    lastFrame slot (records ++ [r]) = frame slot (lastFrame slot records) r := by
  simp [lastFrame, List.foldl_append]

/-- A record of a longer history is its last one or one of the shorter history. -/
theorem append_singleton_eq_split {α : Type} {l before after : List α} {a b : α}
    (h : l ++ [a] = before ++ b :: after) :
    l = before ∧ a = b ∨ ∃ rest, l = before ++ b :: rest := by
  rcases List.eq_nil_or_concat after with rfl | ⟨rest, c, rfl⟩
  · obtain ⟨rfl, hab⟩ := List.append_inj' h rfl
    exact .inl ⟨rfl, List.cons.inj hab |>.1⟩
  · rw [List.concat_eq_append, ← List.cons_append, ← List.append_assoc] at h
    exact .inr ⟨rest, (List.append_inj' h rfl).1⟩

theorem pairwise_filterMap_append {f : PoolRecord → Option ℕ}
    (h : (records.filterMap f).Pairwise (· < ·))
    (hr : ∀ n, f r = some n → ∀ m ∈ records.filterMap f, m < n) :
    ((records ++ [r]).filterMap f).Pairwise (· < ·) := by
  rw [List.filterMap_append]
  refine List.pairwise_append.2 ⟨h, ?_, fun m hm n hn => ?_⟩
  · cases hf : f r <;> simp [hf]
  · simp only [List.filterMap_cons, List.filterMap_nil] at hn
    cases hf : f r with
    | none => simp [hf] at hn
    | some k =>
      rw [hf, List.mem_singleton] at hn
      exact hn ▸ hr k hf m hm

theorem forall_filterMap_append {f : PoolRecord → Option ℕ} {a b : ℕ}
    (h : ∀ m ∈ records.filterMap f, m ≤ a) (hab : a ≤ b) (hr : ∀ n, f r = some n → n ≤ b) :
    ∀ m ∈ (records ++ [r]).filterMap f, m ≤ b := by
  intro m hm
  rw [List.filterMap_append, List.mem_append] at hm
  rcases hm with hm | hm
  · exact (h m hm).trans hab
  · obtain ⟨k, hk, hf⟩ := List.mem_filterMap.1 hm
    obtain rfl := List.mem_singleton.1 hk
    exact hr m hf

theorem Orderly.append (h : Orderly records)
    (hgen : ∀ n, sentGeneration r = some n → ∀ m ∈ records.filterMap sentGeneration, m < n)
    (hseq : ∀ n, sentSeq r = some n → ∀ m ∈ records.filterMap sentSeq, m < n)
    (hpoint : ∀ n, sentPoint r = some n → ∀ m ∈ records.filterMap sentPoint, m < n)
    (hframe : ∀ f, r = .sent (.frameReady f) →
      ∃ bind, announced records = some bind ∧ f.imageIndex < bind.count)
    (hwait : ∀ slot point, r = .waited slot point → point = lastFrame slot records) :
    Orderly (records ++ [r]) where
  generations := pairwise_filterMap_append h.generations hgen
  seqs := pairwise_filterMap_append h.seqs hseq
  releasePoints := pairwise_filterMap_append h.releasePoints hpoint
  frames := by
    intro before f after heq
    rcases append_singleton_eq_split heq with ⟨rfl, rfl⟩ | ⟨rest, hrest⟩
    · exact hframe f rfl
    · exact h.frames before f rest hrest
  waits := by
    intro before slot point after heq
    rcases append_singleton_eq_split heq with ⟨rfl, rfl⟩ | ⟨rest, hrest⟩
    · exact hwait slot point rfl
    · exact h.waits before slot point rest hrest

end Append

/-! ## The pool agrees with what it announced -/

/-- The counters are at least those that were sent, and the points are those of the last frames. -/
structure BridgePool.Tells (p : BridgePool) (records : List PoolRecord) : Prop where
  orderly : Orderly records
  generation : ∀ n ∈ records.filterMap sentGeneration, n ≤ p.bindGeneration
  seq : ∀ n ∈ records.filterMap sentSeq, n ≤ p.releasePoint
  releasePoint : ∀ n ∈ records.filterMap sentPoint, n ≤ p.releasePoint
  lastFrame : ∀ slot, timelineWait (p.lastReleasePoint slot) = Waywallen.lastFrame slot records

/-- Every slot is a slot of the pool that was announced last. -/
def BridgePool.Shown (p : BridgePool) (records : List PoolRecord) : Prop :=
  ∀ index < p.slots.length, ∃ bind, announced records = some bind ∧ index < bind.count

namespace BridgePool

namespace Tells

variable {p q : BridgePool} {records : List PoolRecord}

/-- The slots and the directive do not matter. -/
theorem congr (h : p.Tells records) (hgen : q.bindGeneration = p.bindGeneration)
    (hpoint : q.releasePoint = p.releasePoint) (hlast : q.lastReleasePoint = p.lastReleasePoint) :
    q.Tells records where
  orderly := h.orderly
  generation := hgen ▸ h.generation
  seq := hpoint ▸ h.seq
  releasePoint := hpoint ▸ h.releasePoint
  lastFrame := hlast ▸ h.lastFrame


/-- Another event than an announcement or a frame. -/
theorem silent (h : p.Tells records) {r : PoolRecord} (hannounce : ∀ cur, announce cur r = cur)
    (hframe : ∀ slot cur, frame slot cur r = cur) (hgen : sentGeneration r = none)
    (hseq : sentSeq r = none) (hpoint : sentPoint r = none)
    (hwait : ∀ slot point, r = .waited slot point → point = Waywallen.lastFrame slot records) :
    p.Tells (records ++ [r]) where
  orderly := by
    refine h.orderly.append ?_ ?_ ?_ ?_ hwait
    · simp [hgen]
    · simp [hseq]
    · simp [hpoint]
    · rintro f rfl
      cases hseq
  generation := forall_filterMap_append h.generation le_rfl (by simp [hgen])
  seq := forall_filterMap_append h.seq le_rfl (by simp [hseq])
  releasePoint := forall_filterMap_append h.releasePoint le_rfl (by simp [hpoint])
  lastFrame := fun slot => by rw [lastFrame_append, hframe, h.lastFrame]

theorem tornDown (h : p.Tells records) : p.teardownSlots.Tells (records ++ [.tornDown]) where
  orderly := by
    refine h.orderly.append ?_ ?_ ?_ ?_ ?_
    · rintro n ⟨⟩
    · rintro n ⟨⟩
    · rintro n ⟨⟩
    · rintro f ⟨⟩
    · rintro slot point ⟨⟩
  generation := forall_filterMap_append h.generation le_rfl (by rintro n ⟨⟩)
  seq := forall_filterMap_append h.seq le_rfl (by rintro n ⟨⟩)
  releasePoint := forall_filterMap_append h.releasePoint le_rfl (by rintro n ⟨⟩)
  lastFrame := fun slot => (lastFrame_append slot records .tornDown).symm

/-- An announcement, of a pool of which nothing was submitted. -/
theorem announce (h : p.Tells records) {bind : BindBuffers}
    (hgen : bind.generation = p.bindGeneration + 1) (hnew : ∀ slot, p.lastReleasePoint slot = 0) :
    ({ p with bindGeneration := p.bindGeneration + 1 } : BridgePool).Tells
      (records ++ [PoolRecord.sent (.bindBuffers bind)]) where
  orderly := by
    refine h.orderly.append ?_ ?_ ?_ ?_ ?_
    · rintro n ⟨⟩ m hm
      exact hgen ▸ Nat.lt_succ_of_le (h.generation m hm)
    · rintro n ⟨⟩
    · rintro n ⟨⟩
    · rintro f ⟨⟩
    · rintro slot point ⟨⟩
  generation := forall_filterMap_append h.generation (Nat.le_succ _) (by
    rintro n ⟨⟩
    exact hgen.le)
  seq := forall_filterMap_append h.seq le_rfl (by rintro n ⟨⟩)
  releasePoint := forall_filterMap_append h.releasePoint le_rfl (by rintro n ⟨⟩)
  lastFrame := fun slot => by
    rw [lastFrame_append]
    exact congrArg timelineWait (hnew slot)

/-- A frame of an announced slot. -/
theorem submit (h : p.Tells records) {index : ℕ} {now : UInt64}
    (hshown : ∃ bind, announced records = some bind ∧ index < bind.count) :
    ({ p with releasePoint := p.releasePoint + 1, lastReleasePoint :=
        Function.update p.lastReleasePoint index (p.releasePoint + 1) } : BridgePool).Tells
      (records ++ [.sent (.frameReady ⟨index, p.releasePoint + 1, now, p.releasePoint + 1⟩)]) where
  orderly := by
    refine h.orderly.append ?_ ?_ ?_ ?_ ?_
    · rintro n ⟨⟩
    · rintro n ⟨⟩ m hm
      exact Nat.lt_succ_of_le (h.seq m hm)
    · rintro n ⟨⟩ m hm
      exact Nat.lt_succ_of_le (h.releasePoint m hm)
    · rintro f ⟨⟩
      exact hshown
    · rintro slot point ⟨⟩
  generation := forall_filterMap_append h.generation le_rfl (by rintro n ⟨⟩)
  seq := forall_filterMap_append h.seq (Nat.le_succ _) (by
    rintro n ⟨⟩
    exact le_rfl)
  releasePoint := forall_filterMap_append h.releasePoint (Nat.le_succ _) (by
    rintro n ⟨⟩
    exact le_rfl)
  lastFrame := fun slot => by
    rw [lastFrame_append]
    by_cases hslot : index = slot
    · subst hslot
      simp [frame, timelineWait]
    · simp only [frame, hslot, if_false, Function.update_of_ne (Ne.symm hslot)]
      exact h.lastFrame slot

end Tells

end BridgePool

/-! ## The slots that are allocated -/

theorem atLeastOne_pos (n : ℤ) : 0 < atLeastOne n := by
  unfold atLeastOne
  split <;> omega

/-- Both backends allocate slots of one to four planes. -/
theorem PoolDirective.planeCount_allocSlot {backend : PoolBackend} {d : PoolDirective} {index : ℕ}
    {reply : Except Errno DriverBuffer} {slot : SlotLayout}
    (h : d.allocSlot backend index reply = .ok slot) :
    0 < slot.planeCount ∧ slot.planeCount ≤ poolMaxPlanes := by
  unfold PoolDirective.allocSlot at h
  split at h
  · cases h
  · split at h
    · cases reply with
      | error e => cases h
      | ok buffer =>
        simp only [Except.bind, bind] at h
        split at h
        · cases h
        · rename_i hplanes
          cases h
          simpa [SlotLayout.planeCount, gbmPlanes, atLeastOne_pos] using hplanes
    · split at h
      · cases h
      · cases reply with
        | error e => cases h
        | ok buffer =>
          simp only [Except.bind, bind] at h
          generalize hn : (if d.linearPath then 1 else d.planeCount.toNat : ℤ) = n at h
          split at h
          · cases h
          · rename_i hplanes
            cases h
            simpa [SlotLayout.planeCount, atLeastOne_pos] using hplanes

namespace BridgePool

/-- The slots that an allocation adds: all that were asked for if it succeeds, and fewer if it
fails. -/
theorem allocSlots_eq {replies : ℕ → Except Errno DriverBuffer} (p : BridgePool) (index n : ℕ) :
    ∃ added : List SlotLayout,
      (allocSlots replies p index n).1 = { p with slots := p.slots ++ added } ∧
      (∀ slot ∈ added, ∃ i, p.cur.allocSlot p.backend i (replies i) = .ok slot) ∧
      ((allocSlots replies p index n).2 = .ok () ∧ added.length = n ∨
        (∃ e i, (allocSlots replies p index n).2 = .error e ∧ i < index + n ∧
          p.cur.allocSlot p.backend i (replies i) = .error e) ∧ added.length < n) := by
  induction n generalizing p index with
  | zero => exact ⟨[], by simp [allocSlots], by simp, .inl ⟨rfl, rfl⟩⟩
  | succ n ih =>
    unfold allocSlots
    cases halloc : p.cur.allocSlot p.backend index (replies index) with
    | error e =>
      refine ⟨[], by simp, by simp, .inr ⟨⟨e, index, rfl, by omega, halloc⟩, Nat.succ_pos n⟩⟩
    | ok slot =>
      obtain ⟨added, hpool, halloced, hresult⟩ :=
        ih { p with slots := p.slots ++ [slot] } (index + 1)
      refine ⟨slot :: added, ?_, ?_, ?_⟩
      · rw [hpool]
        simp
      · intro s hs
        rcases List.mem_cons.1 hs with rfl | hs
        · exact ⟨index, halloc⟩
        · exact halloced s hs
      · rcases hresult with ⟨hok, hlength⟩ | ⟨herror, hlength⟩
        · exact .inl ⟨hok, by simp [hlength]⟩
        · obtain ⟨e, i, herror, hi, halloc⟩ := herror
          exact .inr ⟨⟨e, i, herror, by omega, halloc⟩, by simpa using hlength⟩

theorem emitBindBuffers_eq {p : BridgePool} {slot : SlotLayout} {rest : List SlotLayout}
    (hslots : p.slots = slot :: rest) (hlength : p.slots.length ≤ poolMaxSlots)
    (hplanes : 0 < slot.planeCount ∧ slot.planeCount ≤ poolMaxPlanes)
    (hequal : ∀ s ∈ rest, s.planeCount = slot.planeCount) :
    p.emitBindBuffers = ⟨{ p with bindGeneration := p.bindGeneration + 1 },
      [.sent (.bindBuffers
        (({ p with bindGeneration := p.bindGeneration + 1 } : BridgePool).bindEvent slot))],
      .ok ()⟩ := by
  have hmax : ¬poolMaxSlots < rest.length + 1 := by
    rw [hslots] at hlength
    exact not_lt.2 hlength
  have hcount : ¬(slot.planeCount = 0 ∨ poolMaxPlanes < slot.planeCount) := by omega
  unfold emitBindBuffers
  rw [hslots]
  dsimp only
  rw [if_neg hmax, if_neg hcount, if_neg (not_not.2 hequal)]

/-- What a directive can come to: it is not looked at, it is rejected, the first slot or a later
one is not allocated, or all slots are and are announced. -/
inductive Directed (p : BridgePool) (d : PoolDirective) (replies : ℕ → Except Errno DriverBuffer) :
    PoolOutcome → Prop
  | ignored (h : p.capsAdvertised = false) : Directed p d replies ⟨p, [], .error .einval⟩
  | rejected {e : Errno} (h : p.validateDirective d = .error e) : Directed p d replies
      ⟨p, [.sent (.bindFailed d.fourcc d.modifier 2 "directive rejected by pool")], .error e⟩
  | dryRun {e : Errno} {i : ℕ} (hvalid : p.validateDirective d = .ok ()) (hi : i < d.count.toNat)
      (h : (p.directed d).cur.allocSlot p.backend i (replies i) = .error e) : Directed p d replies
      ⟨p.directed d,
        [.tornDown, .sent (.bindFailed d.fourcc d.modifier 0 "alloc_slot dry-run failed")],
        .error e⟩
  | midPool {e : Errno} {i : ℕ} (added : List SlotLayout)
      (hvalid : p.validateDirective d = .ok ()) (hi : i < d.count.toNat)
      (h : (p.directed d).cur.allocSlot p.backend i (replies i) = .error e) : Directed p d replies
      ⟨({ p.directed d with slots := added } : BridgePool).teardownSlots,
        [.tornDown, .sent (.bindFailed d.fourcc d.modifier 1 "alloc_slot failed mid-pool"),
          .tornDown], .error e⟩
  | allocated (added : List SlotLayout) (hvalid : p.validateDirective d = .ok ())
      (hlength : added.length = d.count.toNat)
      (h : ∀ slot ∈ added, ∃ i, (p.directed d).cur.allocSlot p.backend i (replies i) = .ok slot) :
      Directed p d replies
        ⟨({ p.directed d with slots := added } : BridgePool).emitBindBuffers.pool,
          .tornDown :: ({ p.directed d with slots := added } : BridgePool).emitBindBuffers.records,
          ({ p.directed d with slots := added } : BridgePool).emitBindBuffers.result⟩

@[simp]
theorem slots_directed (p : BridgePool) (d : PoolDirective) : (p.directed d).slots = [] := rfl

theorem count_of_validateDirective {p : BridgePool} {d : PoolDirective}
    (h : p.validateDirective d = .ok ()) : 0 < d.count.toNat ∧ d.count.toNat ≤ poolMaxSlots := by
  unfold validateDirective at h
  split at h
  · cases h
  · rename_i hcount
    rw [not_or, not_lt] at hcount
    refine ⟨Nat.pos_of_ne_zero fun hzero => hcount.1 ?_, hcount.2⟩
    exact UInt32.toNat_inj.1 hzero

theorem applyDirective_directed (p : BridgePool) (d : PoolDirective)
    (replies : ℕ → Except Errno DriverBuffer) :
    Directed p d replies (p.applyDirective d replies) := by
  unfold applyDirective
  cases hadvertised : p.capsAdvertised with
  | false => exact .ignored hadvertised
  | true =>
    cases hvalid : p.validateDirective d with
    | error e => exact .rejected hvalid
    | ok u =>
      obtain ⟨first, hfirst, hfirsts, hresult⟩ :=
        @allocSlots_eq replies (p.directed d) 0 1
      generalize hq : allocSlots replies (p.directed d) 0 1 = q at hfirst hresult
      obtain ⟨q, r⟩ := q
      replace hfirst : q = { p.directed d with slots := first } := hfirst
      subst hfirst
      have hcount := count_of_validateDirective hvalid
      rcases hresult with ⟨rfl, hone⟩ | ⟨⟨e, i, rfl, hi, herror⟩, hnone⟩
      · obtain ⟨later, hlater, hlaters, hresult⟩ := @allocSlots_eq replies
          { p.directed d with slots := first } 1 (d.count.toNat - 1)
        generalize hq' : allocSlots replies { p.directed d with slots := first } 1
          (d.count.toNat - 1) = q at hlater hresult
        obtain ⟨q, r⟩ := q
        dsimp only at hlater hresult
        subst hlater
        rcases hresult with ⟨rfl, hrest⟩ | ⟨⟨e, i, rfl, hi, herror⟩, -⟩
        · have hlength : (first ++ later).length = d.count.toNat := by
            rw [List.length_append, hone, hrest]
            omega
          have halloc : ∀ slot ∈ first ++ later,
              ∃ i, (p.directed d).cur.allocSlot p.backend i (replies i) = .ok slot := by
            intro slot hslot
            rcases List.mem_append.1 hslot with hslot | hslot
            · exact hfirsts slot hslot
            · exact hlaters slot hslot
          simpa [hq, hq'] using Directed.allocated (first ++ later) hvalid hlength halloc
        · simpa [hq, hq'] using Directed.midPool (first ++ later) hvalid (by omega) herror
      · rw [Nat.lt_one_iff, List.length_eq_zero_iff] at hnone
        subst hnone
        replace hq : allocSlots replies (p.directed d) 0 1 = (p.directed d, .error e) := hq
        simp only [Bool.not_true, Bool.false_eq_true, if_false]
        exact Directed.dryRun hvalid (by omega) herror

/-! ## Every operation -/

end BridgePool

/-- The backend gives all slots of a directive the same number of planes. -/
def PoolOp.EqualPlanes (backend : PoolBackend) : PoolOp → Prop
  | .applyDirective d replies => ∀ (width height : UInt32) (i j : ℕ) (s t : SlotLayout),
      { d with width := width, height := height }.allocSlot backend i (replies i) = .ok s →
      { d with width := width, height := height }.allocSlot backend j (replies j) = .ok t →
      s.planeCount = t.planeCount
  | _ => True

namespace BridgePool

variable {p : BridgePool} {records : List PoolRecord}

/-- A directive keeps the order, and its slots are announced if it succeeds. -/
theorem Tells.directed (h : p.Tells records) (hshown : p.Shown records) {d : PoolDirective}
    {replies : ℕ → Except Errno DriverBuffer}
    (hequal : (PoolOp.applyDirective d replies).EqualPlanes p.backend) {out : PoolOutcome}
    (hout : p.Directed d replies out) :
    out.pool.Tells (records ++ out.records) ∧ out.pool.Shown (records ++ out.records) ∧
      out.pool.backend = p.backend := by
  have hdown : (p.directed d).Tells (records ++ [.tornDown]) := h.tornDown.congr rfl rfl rfl
  have hfailed {q : BridgePool} {records : List PoolRecord} (h : q.Tells records) (reason : UInt32)
      (message : String) :
      q.Tells (records ++ [.sent (.bindFailed d.fourcc d.modifier reason message)]) :=
    h.silent (fun _ => rfl) (fun _ _ => rfl) rfl rfl rfl (by rintro slot point ⟨⟩)
  cases hout with
  | ignored _ => exact ⟨by simpa using h, by simpa using hshown, rfl⟩
  | rejected _ =>
    refine ⟨hfailed h _ _, fun index hindex => ?_, rfl⟩
    rw [announced_append]
    exact hshown index hindex
  | dryRun _ _ _ =>
    refine ⟨?_, by rintro index ⟨⟩, rfl⟩
    simpa using hfailed hdown _ _
  | midPool added _ _ _ =>
    refine ⟨?_, by rintro index ⟨⟩, rfl⟩
    have hcongr : ({ p.directed d with slots := added } : BridgePool).Tells
        (records ++ [.tornDown]) := hdown.congr rfl rfl rfl
    simpa using (hfailed hcongr _ _).tornDown
  | allocated added hvalid hlength halloc =>
    obtain ⟨hpos, hmax⟩ := count_of_validateDirective hvalid
    rw [← hlength] at hpos hmax
    have hplanes : ∀ slot ∈ added, 0 < slot.planeCount ∧ slot.planeCount ≤ poolMaxPlanes := by
      intro slot hslot
      obtain ⟨i, hi⟩ := halloc slot hslot
      exact PoolDirective.planeCount_allocSlot hi
    have hsame : ∀ s ∈ added, ∀ t ∈ added, s.planeCount = t.planeCount := by
      intro s hs t ht
      obtain ⟨i, hi⟩ := halloc s hs
      obtain ⟨j, hj⟩ := halloc t ht
      exact hequal _ _ i j s t hi hj
    obtain ⟨slot, rest, rfl⟩ := List.exists_cons_of_length_pos hpos
    have hemit := emitBindBuffers_eq (p := { p.directed d with slots := slot :: rest }) rfl hmax
      (hplanes slot List.mem_cons_self)
      fun s hs => hsame s (List.mem_cons_of_mem _ hs) slot List.mem_cons_self
    generalize hbind : BridgePool.bindEvent _ slot = bind at hemit
    have hcongr : ({ p.directed d with slots := slot :: rest } : BridgePool).Tells
        (records ++ [.tornDown]) := hdown.congr rfl rfl rfl
    have hgen : bind.generation = p.bindGeneration + 1 := hbind ▸ rfl
    have hcount : bind.count = (slot :: rest).length := hbind ▸ rfl
    rw [hemit, List.append_cons]
    refine ⟨hcongr.announce hgen fun _ => rfl, fun index hindex => ?_, rfl⟩
    exact ⟨bind, announced_append .., hcount ▸ hindex⟩

/-- What is sent once a pool is advertised, before it is announced. -/
def Introduces : PoolRecord → Prop
  | .sent (.ready _) | .sent .releaseSyncobj | .sent (.formatCaps _) => True
  | _ => False

theorem Tells.introduce (h : p.Tells records) (hshown : p.Shown records) {sent : List PoolRecord}
    (hsent : ∀ r ∈ sent, Introduces r) :
    p.Tells (records ++ sent) ∧ p.Shown (records ++ sent) := by
  induction sent generalizing records with
  | nil => simpa using ⟨h, hshown⟩
  | cons r sent ih =>
    rw [List.append_cons]
    have hr := hsent r List.mem_cons_self
    have hrest : ∀ r ∈ sent, Introduces r := fun k hk => hsent k (List.mem_cons_of_mem _ hk)
    refine ih ?_ (fun index hindex => ?_) hrest
    · cases r with
      | sent event =>
        cases event with
        | ready _ | releaseSyncobj | formatCaps _ =>
          exact h.silent (fun _ => rfl) (fun _ _ => rfl) rfl rfl rfl (by rintro slot point ⟨⟩)
        | bindBuffers _ | frameReady _ | bindFailed _ _ _ _ => exact hr.elim
      | tornDown | waited _ _ => exact hr.elim
    · rw [announced_append]
      cases r with
      | sent event =>
        cases event with
        | ready _ | releaseSyncobj | formatCaps _ => exact hshown index hindex
        | bindBuffers _ | frameReady _ | bindFailed _ _ _ _ => exact hr.elim
      | tornDown | waited _ _ => exact hr.elim

theorem advertiseCaps_eq (width height memHints : UInt32) (reply : ProbeReply) :
    (∀ r ∈ (p.advertiseCaps width height memHints reply).records, Introduces r) ∧
      ∃ caps advertised ready syncobj, (p.advertiseCaps width height memHints reply).pool =
        { p with
          probeWidth := width, probeHeight := height, caps := caps, capsAdvertised := advertised
          readySent := ready, releaseSyncobjSent := syncobj } := by
  have hsent (ready syncobj : Bool) : ∀ r ∈ (if ready then [] else
      [PoolRecord.sent (.ready p.caps.drm)]) ++
        if syncobj then [] else [PoolRecord.sent .releaseSyncobj], Introduces r := by
    cases ready <;> cases syncobj <;> simp [Introduces]
  cases reply with
  | outOfMemory => exact ⟨List.forall_mem_nil _, _, _, _, _, rfl⟩
  | vulkan _ _ | eglGbm _ _ _ =>
    unfold advertiseCaps
    dsimp only
    split
    · exact ⟨hsent _ _, _, _, _, _, rfl⟩
    · refine ⟨fun r hr => ?_, _, _, _, _, rfl⟩
      rcases List.mem_append.1 hr with hr | hr
      · exact hsent _ _ r hr
      · obtain rfl := List.mem_singleton.1 hr
        trivial

/-- What one operation preserves. -/
theorem Tells.exec (h : p.Tells records) (hshown : p.Shown records) {op : PoolOp}
    (hequal : op.EqualPlanes p.backend) :
    (p.exec op).1.Tells (records ++ (p.exec op).2) ∧
      (p.exec op).1.Shown (records ++ (p.exec op).2) ∧ (p.exec op).1.backend = p.backend := by
  cases op with
  | advertiseCaps width height memHints reply =>
    obtain ⟨hsent, caps, advertised, ready, syncobj, hpool⟩ :=
      advertiseCaps_eq (p := p) width height memHints reply
    dsimp only [BridgePool.exec]
    rw [hpool]
    have hcongr : ({ p with
      probeWidth := width, probeHeight := height, caps := caps, capsAdvertised := advertised
      readySent := ready, releaseSyncobjSent := syncobj } : BridgePool).Tells records :=
      h.congr rfl rfl rfl
    obtain ⟨htells, hshown⟩ := hcongr.introduce hshown hsent
    exact ⟨htells, hshown, rfl⟩
  | applyDirective d replies => exact h.directed hshown hequal (p.applyDirective_directed d replies)
  | acquireSlot index populated =>
    exact ⟨by simpa [BridgePool.exec] using h, by simpa [BridgePool.exec] using hshown, rfl⟩
  | submitSlot index now =>
    dsimp only [BridgePool.exec]
    unfold submitSlot
    split
    · exact ⟨by simpa using h, by simpa using hshown, rfl⟩
    · rename_i hindex
      rw [not_or, not_le] at hindex
      refine ⟨h.submit (hshown index hindex.2), fun i hi => ?_, rfl⟩
      dsimp only
      rw [announced_append]
      exact hshown i hi
  | waitSlotRelease index signaled =>
    dsimp only [BridgePool.exec]
    unfold waitSlotRelease
    split
    · exact ⟨by simpa using h, by simpa using hshown, rfl⟩
    · refine ⟨?_, fun i hi => ?_, rfl⟩
      · refine h.silent (fun _ => rfl) (fun _ _ => rfl) rfl rfl rfl ?_
        rintro slot point ⟨⟩
        exact h.lastFrame index
      · dsimp only
        rw [announced_append]
        exact hshown i hi

theorem Tells.execAll {ops : List PoolOp} (h : p.Tells records) (hshown : p.Shown records)
    (hequal : ∀ op ∈ ops, op.EqualPlanes p.backend) :
    (p.execAll ops).1.Tells (records ++ (p.execAll ops).2) := by
  induction ops generalizing p records with
  | nil => simpa [BridgePool.execAll] using h
  | cons op ops ih =>
    obtain ⟨htells, hshown, hbackend⟩ := h.exec hshown (hequal op List.mem_cons_self)
    have hrest := ih htells hshown fun k hk =>
      hbackend ▸ hequal k (List.mem_cons_of_mem _ hk)
    dsimp only [BridgePool.execAll]
    rwa [← List.append_assoc]

theorem tells_create (backend : PoolBackend) (wantFeatures : UInt32) (caps : PoolCaps) :
    (create backend wantFeatures caps).Tells [] where
  orderly := by
    refine ⟨List.Pairwise.nil, List.Pairwise.nil, List.Pairwise.nil, ?_, ?_⟩
    · intro before f after h
      exact absurd h (by simp)
    · intro before slot point after h
      exact absurd h (by simp)
  generation := List.forall_mem_nil _
  seq := List.forall_mem_nil _
  releasePoint := List.forall_mem_nil _
  lastFrame := fun _ => rfl

end BridgePool

/-- The Vulkan backend describes as many planes as the directive counts. -/
theorem PoolDirective.planeCount_allocSlot_vulkan {d : PoolDirective} {index : ℕ}
    {reply : Except Errno DriverBuffer} {slot : SlotLayout}
    (h : d.allocSlot .vulkan index reply = .ok slot) :
    slot.planeCount = atLeastOne (if d.linearPath then 1 else d.planeCount.toNat) := by
  unfold PoolDirective.allocSlot at h
  split at h
  · cases h
  · dsimp only at h
    split at h
    · cases h
    · cases reply with
      | error e => cases h
      | ok buffer =>
        simp only [Except.bind, bind] at h
        generalize (if d.linearPath then 1 else d.planeCount.toNat : ℤ) = n at h ⊢
        split at h
        · cases h
        · cases h
          simp [SlotLayout.planeCount]

theorem PoolOp.equalPlanes_vulkan (op : PoolOp) : op.EqualPlanes .vulkan := by
  cases op with
  | applyDirective d replies =>
    intro width height i j s t hs ht
    rw [PoolDirective.planeCount_allocSlot_vulkan hs, PoolDirective.planeCount_allocSlot_vulkan ht]
  | advertiseCaps _ _ _ _ | acquireSlot _ _ | submitSlot _ _ | waitSlotRelease _ _ => trivial

/-- A directive for two slots of LINEAR buffers. -/
def linearDirective : PoolDirective :=
  ⟨2, 1, drmFormatAbgr8888, drmFormatModLinear, 1, syncSyncobjTimeline, poolColorCaps, 0, 0, 0, 2⟩

def linearBuffer : DriverBuffer := ⟨1, fun _ => ⟨7680, 0, 8294400⟩, drmFormatModLinear⟩

/-- Two slots are announced and drawn to, a second directive fails at its second slot, and a third
one succeeds. -/
def failedInBetween : List PoolOp :=
  [.advertiseCaps 1920 1080 0 (.vulkan (fun _ => []) none),
    .applyDirective linearDirective fun _ => .ok linearBuffer,
    .submitSlot 0 10, .submitSlot 1 20, .submitSlot 0 30, .waitSlotRelease 0 (.ok ()),
    .applyDirective linearDirective fun i => if i = 0 then .ok linearBuffer else .error .eio,
    .submitSlot 0 40, .applyDirective linearDirective fun _ => .ok linearBuffer,
    .waitSlotRelease 0 (.ok ()), .submitSlot 1 50]

def unprobedCaps : PoolCaps := ⟨[], 0, 0, 0, (0, 0), none, ⟨226, 128⟩⟩

end Waywallen
