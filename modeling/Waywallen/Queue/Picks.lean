import Mathlib.Data.List.Chain
import Waywallen.Library.Rounds
import Waywallen.Library.Shuffle
import Waywallen.Queue.Answers

/-!
# The picks of a shuffled queue

A step of the shuffle looks whether there is a round and picks from it later, under another lock. It
picks a member of the round as long as the round has not been emptied in between; when nothing
happens in between, the picks go in rounds over the candidates.
-/

namespace Waywallen

open TaskPool

namespace QueueState

variable (q : QueueState) (nanos : UInt64)

/-! ## Draws that fail out of bounds -/

/-- The generator, asked for a number below `n`. -/
def draw (n : ℕ) (q : QueueState) : ℕ × QueueState :=
  ((q.rngRange nanos (UInt32.ofNat n)).1.toNat, (q.rngRange nanos (UInt32.ofNat n)).2)

/-- `buildShuffleRound`, which fails if it indexes outside the round. -/
def checkedRound (candidates : Array ℕ) (avoid : Option ℕ) (targetPos : ℕ) : Option QueueState := do
  let n := candidates.size
  let (round, q) ← Shuffle.shuffleFrom (draw nanos) (n - 1) candidates q
  if 1 < n ∧ avoid.isSome ∧ round[targetPos]? = avoid then
    let (raw, q) := draw nanos (n - 1) q
    let round ← Shuffle.swap round targetPos (if targetPos ≤ raw then raw + 1 else raw)
    some { q with shuffleRound := round }
  else some { q with shuffleRound := round }

/-- The first pick of a round that is drawn from the ids. -/
def checkedFirst (ids : List ℕ) : Option (ℕ × QueueState) := do
  let q ← q.checkedRound nanos ids.toArray q.lastDbId 0
  let pick ← q.shuffleRound[0]?
  some (pick, { q with shufflePos := 0 })

/-- One step through the round, and the pick at its end. -/
def checkedWalk (delta : Int32) : Option (ℕ × QueueState) :=
  let len : Int := q.shuffleRound.size
  let raw : Int := q.shufflePos + delta.toInt
  if len ≤ raw ∨ raw < 0 then do
    let target := if len ≤ raw then 0 else q.shuffleRound.size - 1
    let q ← q.checkedRound nanos q.shuffleRound q.lastDbId target
    let pick ← q.shuffleRound[target]?
    some (pick, { q with shufflePos := target })
  else do
    let pick ← q.shuffleRound[raw.toNat]?
    some (pick, { q with shufflePos := raw.toNat })

end QueueState

/-! ## The draws stay in bounds -/

namespace QueueState

variable {q : QueueState} (nanos : UInt64)

theorem draw_lt (n : ℕ) (q : QueueState) (hn : 0 < n) : (draw nanos n q).1 < n := by
  show (q.rngRange nanos (UInt32.ofNat n)).1.toNat < n
  unfold rngRange
  split
  · exact hn
  · rename_i hne
    have hpos : 0 < (UInt32.ofNat n).toNat := Nat.pos_of_ne_zero fun h =>
      hne (UInt32.toNat_inj.1 h)
    have hle : (UInt32.ofNat n).toNat ≤ n := by
      rw [UInt32.toNat_ofNat']
      exact Nat.mod_le _ _
    show ((q.rngNext nanos).1 % (UInt32.ofNat n).toUInt64).toUInt32.toNat < n
    rw [UInt64.toNat_toUInt32, UInt64.toNat_mod, UInt32.toNat_toUInt64]
    exact Nat.lt_of_le_of_lt (Nat.mod_le _ _) (Nat.lt_of_lt_of_le (Nat.mod_lt _ hpos) hle)

/-- The generator does not look at the round. -/
theorem draw_with (n : ℕ) (g : QueueState) (a : Array ℕ) :
    draw nanos n { g with shuffleRound := a } =
      ((draw nanos n g).1, { (draw nanos n g).2 with shuffleRound := a }) := by
  unfold draw rngRange
  split <;> rfl

theorem shuffleFrom_succ (g : QueueState) (i : ℕ) : shuffleFrom nanos g (i + 1) =
    shuffleFrom nanos ((draw nanos (i + 2) g).2.swap (i + 1) (draw nanos (i + 2) g).1) i := rfl

theorem checked_shuffleFrom {i : ℕ} {a : Array ℕ} (g : QueueState) (hi : i < a.size ∨ i = 0) :
    ∃ b g', Shuffle.shuffleFrom (draw nanos) i a g = some (b, g') ∧
      { g' with shuffleRound := b } = shuffleFrom nanos { g with shuffleRound := a } i := by
  induction i generalizing a g with
  | zero => exact ⟨a, g, rfl, rfl⟩
  | succ i ih =>
    have hi : i + 1 < a.size := hi.resolve_right (Nat.succ_ne_zero i)
    have hj : (draw nanos (i + 2) g).1 < a.size := by
      have := draw_lt nanos (i + 2) g (by omega)
      omega
    obtain ⟨a', ha'⟩ := Shuffle.swap_isSome hi hj
    obtain ⟨hperm, hswap⟩ := Shuffle.swap_eq_some ha'
    obtain ⟨b, g', hb, heq⟩ := ih (a := a') (draw nanos (i + 2) g).2 (.inl (by
      rw [hperm.size_eq]
      omega))
    refine ⟨b, g', by simp [Shuffle.shuffleFrom, ha', hb], ?_⟩
    rw [heq, shuffleFrom_succ, draw_with nanos _ g a, hswap]
    rfl

/-- The avoiding exchange is with another place of the round. -/
theorem avoiding_lt {n target raw : ℕ} (ht : target < n) (hraw : raw < n - 1) :
    (if target ≤ raw then raw + 1 else raw) < n ∧
      (if target ≤ raw then raw + 1 else raw) ≠ target := by
  split <;> omega

theorem checkedRound_eq (candidates : Array ℕ) (avoid : Option ℕ) (target : ℕ) :
    q.checkedRound nanos candidates avoid target =
      some (q.buildShuffleRound nanos candidates avoid target) := by
  obtain ⟨b, g, hb, heq⟩ :=
    checked_shuffleFrom nanos (i := candidates.size - 1) (a := candidates) q (by omega)
  have hsize : b.size = candidates.size := by
    have h : Shuffled { q with shuffleRound := candidates } { g with shuffleRound := b } :=
      heq ▸ shuffled_shuffleFrom _
    exact h.shuffleRound.size_eq
  unfold checkedRound buildShuffleRound
  dsimp only
  rw [hb, ← heq]
  simp only [Option.bind_eq_bind, Option.bind_some]
  split
  · rename_i hc
    have ht : target < b.size := by
      by_contra hnot
      rw [Array.getElem?_eq_none (Nat.le_of_not_lt hnot)] at hc
      simp [← hc.2.2] at hc
    obtain ⟨hlt, -⟩ := avoiding_lt (hsize ▸ ht)
      (draw_lt nanos (candidates.size - 1) g (by omega))
    rw [← hsize] at hlt
    obtain ⟨b', hb'⟩ := Shuffle.swap_isSome ht hlt
    rw [hsize] at hb'
    have hdraw := draw_with nanos (candidates.size - 1) g b
    have hraw := congrArg Prod.fst hdraw
    have hrng := congrArg Prod.snd hdraw
    dsimp only [draw] at hraw hrng
    rw [hb', Option.bind_some, (Shuffle.swap_eq_some hb').2, hraw, hrng]
    rfl
  · rfl

theorem checkedWalk_eq (delta : Int32) : q.checkedWalk nanos delta =
    (q.walk nanos delta).shuffleRound[(q.walk nanos delta).shufflePos]?.map fun pick =>
      (pick, q.walk nanos delta) := by
  unfold checkedWalk walk
  dsimp only
  split
  · rw [checkedRound_eq, Option.bind_eq_bind, Option.bind_some, Option.map_eq_bind]
    rfl
  · rw [Option.map_eq_bind]
    rfl

theorem checkedFirst_eq (ids : List ℕ) : q.checkedFirst nanos ids =
    (q.buildShuffleRound nanos ids.toArray q.lastDbId 0).shuffleRound[0]?.map fun pick =>
      (pick, { q.buildShuffleRound nanos ids.toArray q.lastDbId 0 with shufflePos := 0 }) := by
  rw [checkedFirst, checkedRound_eq, Option.bind_eq_bind, Option.bind_some, Option.map_eq_bind]
  rfl

/-- A walk stays in the round, unless there is none. -/
theorem walk_pos_lt (delta : Int32) : (q.walk nanos delta).shufflePos <
    (q.walk nanos delta).shuffleRound.size ↔ q.shuffleRound ≠ #[] := by
  have hne : q.shuffleRound ≠ #[] ↔ 0 < q.shuffleRound.size := by
    rw [Nat.pos_iff_ne_zero, Ne, ← Array.size_eq_zero_iff]
  rw [hne]
  unfold walk
  dsimp only
  split
  · dsimp only
    rw [size_buildShuffleRound]
    split <;> omega
  · dsimp only
    omega

theorem checkedWalk_isSome (delta : Int32) :
    (∃ pick q', q.checkedWalk nanos delta = some (pick, q') ∧ pick ∈ q'.shuffleRound) ↔
      q.shuffleRound ≠ #[] := by
  rw [← walk_pos_lt nanos delta, checkedWalk_eq]
  constructor
  · rintro ⟨pick, q', h, -⟩
    obtain ⟨_, hget, -⟩ := Option.map_eq_some_iff.1 h
    exact (Array.getElem?_eq_some_iff.1 hget).1
  · intro hlt
    exact ⟨_, _, by rw [Array.getElem?_eq_getElem hlt]; rfl, Array.getElem_mem hlt⟩

theorem checkedFirst_isSome {ids : List ℕ} (hids : ids ≠ []) :
    ∃ pick q', q.checkedFirst nanos ids = some (pick, q') ∧ pick ∈ q'.shuffleRound := by
  have hlt : 0 < (q.buildShuffleRound nanos ids.toArray q.lastDbId 0).shuffleRound.size := by
    rw [size_buildShuffleRound, List.size_toArray]
    exact List.length_pos_of_ne_nil hids
  rw [checkedFirst_eq]
  exact ⟨_, { q.buildShuffleRound nanos ids.toArray q.lastDbId 0 with shufflePos := 0 },
    by rw [Array.getElem?_eq_getElem hlt]; rfl, Array.getElem_mem hlt⟩

end QueueState

/-! ## Steps that interleave -/

section

variable (files : Files) {s : AppState} {nanos : UInt64} {pick : ℕ} {q : QueueState}

/-- The calls of the queue go on with the picks that are checked. -/
theorem exec_walkRound {delta : Int32} (h : s.queue.checkedWalk nanos delta = some (pick, q)) :
    (QueueCall.walkRound delta).exec files (.now nanos) s =
      some { shared := { s with queue := q }, next := [.fetch pick] } := by
  rw [QueueState.checkedWalk_eq] at h
  obtain ⟨pick', hget, heq⟩ := Option.map_eq_some_iff.1 h
  obtain ⟨rfl, rfl⟩ := Prod.mk.inj heq
  simp only [QueueCall.exec, AppState.andThen, AppState.pick, hget, Option.toList_some,
    List.map_cons, List.map_nil]

theorem exec_buildRound {ids : List ℕ} (h : s.queue.checkedFirst nanos ids = some (pick, q)) :
    (QueueCall.buildRound ids).exec files (.now nanos) s =
      some { shared := { s with queue := q }, next := [.fetch pick] } := by
  rw [QueueState.checkedFirst_eq] at h
  obtain ⟨pick', hget, heq⟩ := Option.map_eq_some_iff.1 h
  obtain ⟨rfl, rfl⟩ := Prod.mk.inj heq
  simp only [QueueCall.exec, AppState.andThen, AppState.pick, hget, Option.toList_some,
    List.map_cons, List.map_nil]

end

/-- If the call picks, it indexes nothing outside the round, and picks a member of it. -/
def QueueCall.PicksWell (q : QueueState) : QueueCall → Prop
  | .buildRound ids => ∀ nanos, ∃ pick q',
      q.checkedFirst nanos ids = some (pick, q') ∧ pick ∈ q'.shuffleRound
  | .walkRound delta => ∀ nanos, ∃ pick q',
      q.checkedWalk nanos delta = some (pick, q') ∧ pick ∈ q'.shuffleRound
  | _ => True

def PicksInRound (p : QueuePool) (l : QueueLabel) : Prop :=
  ∀ c, p.executed l = some c → c.PicksWell p.shared.queue

/-- A step that walks the round finds one. -/
def FindsRound (p : QueuePool) (l : QueueLabel) : Prop :=
  ∀ c ∈ p.executed l, c.walks = true → p.shared.queue.shuffleRound ≠ #[]

instance (p : QueuePool) (l : QueueLabel) : Decidable (FindsRound p l) :=
  inferInstanceAs (Decidable (∀ c ∈ p.executed l, _ → _))

theorem PicksInRound.findsRound {p : QueuePool} {l : QueueLabel} (h : PicksInRound p l) :
    FindsRound p l := by
  intro c hc hwalks
  cases c with
  | walkRound delta => exact (QueueState.checkedWalk_isSome 0 delta).1 (h _ hc 0)
  | _ => cases hwalks

/-- A round is drawn only from ids that were listed. -/
def QueueCall.Listed : QueueCall → Prop
  | .buildRound ids => ids ≠ []
  | _ => True

theorem QueueCall.exec_listed {files : Files} {c : QueueCall} {x : QueueChoice} {s : AppState}
    {o : QueueStep} (ho : c.exec files x s = some o) :
    (∀ k ∈ o.next, k.Listed) ∧ o.spawn = [] := by
  cases c with
  | listItemIds filter =>
    simp only [QueueCall.exec] at ho
    split at ho
    · split at ho <;> cases ho <;> simp [QueueCall.Listed]
    · cases ho
      exact ⟨by simp, rfl⟩
    · cases ho
  | stepShuffle delta filter =>
    cases ho
    refine ⟨List.forall_mem_singleton.2 ?_, rfl⟩
    split <;> trivial
  | _ =>
    simp only [QueueCall.exec, AppState.done, AppState.andThen, AppState.pick] at ho
    (repeat' split at ho) <;> cases ho <;> simp [QueueCall.Listed]

theorem listed_of_step {files : Files} (p : QueuePool) (l : QueueLabel) (p' : QueuePool)
    (h : ∀ c ∈ calls p.tasks, c.Listed) (hstep : (queueSemantics files).step p l = some p') :
    ∀ c ∈ calls p'.tasks, c.Listed := by
  refine (Semantics.preserves_pending (J := fun _ => True) (F := fun _ c => QueueCall.Listed c)
    (C := fun _ _ => True) ?_ ?_ ?_ p l p' ⟨trivial, h⟩ trivial hstep).2
  · rintro p l i x c o - - - - - ho
    obtain ⟨hnext, hspawn⟩ := QueueCall.exec_listed ho
    refine ⟨trivial, fun _ => id, hnext, fun k hk => ?_⟩
    rw [hspawn] at hk
    cases hk
  · rintro p q s t - - hq
    cases hq
    refine ⟨trivial, fun _ => id, fun k hk => ?_⟩
    cases k with
    | buildRound ids => cases q <;> simp at hk
    | _ => trivial
  · rintro p e
    cases e

/-- A shuffled step picks a member of the round, and indexes nothing outside it, exactly if it finds
a round whenever it walks one. -/
theorem picksInRound_iff (files : Files) (settings : GlobalSettings) (db : Db)
    {ls : List QueueLabel} {p : QueuePool}
    (hrun : Transition.run (queueSemantics files).step (startQueue settings db) ls = some p) :
    Transition.Along (queueSemantics files).step PicksInRound (startQueue settings db) ls ↔
      Transition.Along (queueSemantics files).step FindsRound (startQueue settings db) ls := by
  have hlisted : Transition.Along (queueSemantics files).step
      (fun p _ => ∀ c ∈ calls p.tasks, c.Listed) (startQueue settings db) ls :=
    Transition.along_invariant (fun p l p' h _ => listed_of_step p l p' h) (by simp [startQueue])
      (Transition.along_true _ ls)
  refine Transition.along_congr hrun hlisted fun p l p' h _ => ?_
  constructor
  · exact PicksInRound.findsRound
  · intro hfinds c hc
    cases c with
    | buildRound ids =>
      exact fun nanos => QueueState.checkedFirst_isSome nanos (h _ (mem_calls_of_executed hc))
    | walkRound delta =>
      exact fun nanos => (QueueState.checkedWalk_isSome nanos delta).2 (hfinds _ hc rfl)
    | _ => trivial

/-- A round is drawn, and the next step finds it and begins another one. -/
def twoSteps : List QueueLabel :=
  firstStep ++ .start (.step 1) :: runTask 2 [.tick, .tick, .tick, .tick, .now 2, .tick]

theorem picksInRound_twoSteps : Transition.Along (queueSemantics plainFiles).step PicksInRound
    (startQueue shuffledSettings clipDb) twoSteps := by
  have hrun : (Transition.run (queueSemantics plainFiles).step (startQueue shuffledSettings clipDb)
      twoSteps).isSome = true := by
    decide +kernel
  exact (picksInRound_iff plainFiles shuffledSettings clipDb
    (Transition.run_reached _ hrun)).2 (by decide +kernel)

/-- A step has found the round, and the database changes before it walks it. -/
def resetUnderway : List QueueLabel :=
  firstStep ++ .start (.step 1) :: runTask 2 (List.replicate 4 .tick) ++
    .start (.changeDb true) :: runTask 3 [.tick, .tick]

/-- The step indexes an empty round. -/
theorem not_picksInRound_resetUnderway :
    ¬ Transition.Along (queueSemantics plainFiles).step PicksInRound
      (startQueue shuffledSettings clipDb) (resetUnderway ++ runTask 2 [.now 2]) := by
  have hrun : (Transition.run (queueSemantics plainFiles).step (startQueue shuffledSettings clipDb)
      resetUnderway).isSome = true := by
    decide +kernel
  have hnone : ¬ FindsRound (Transition.reached (queueSemantics plainFiles).step
      (startQueue shuffledSettings clipDb) resetUnderway hrun) (.run 2 (.now 2)) := by
    decide +kernel +revert
  intro h
  have hpicks := (Transition.along_append.1 h).2 _ (Transition.run_reached _ hrun)
  exact hnone (Transition.along_cons.1 hpicks).1.findsRound

/-! ## Steps one after the other -/

namespace QueueState

open Rounds

/-- One call of `step_shuffle` with nothing in between; `ids` is what the filter accepts. -/
def stepShuffle (q : QueueState) (nanos : UInt64) (ids : List ℕ) (delta : Int32) :
    Option (ℕ × QueueState) :=
  if q.shuffleRound.isEmpty then
    if ids = [] then none else q.checkedFirst nanos ids
  else q.checkedWalk nanos delta

/-- The pick is applied. -/
def applied (q : QueueState) (pick : ℕ) : QueueState :=
  { q with
    current := some (toString pick)
    lastDbId := some pick }

/-- What `k` steps of 1 pick, each applied before the next; `nanos` is the clock. -/
def picks (ids : List ℕ) (nanos : ℕ → UInt64) (q : QueueState) : ℕ → Option (List ℕ × QueueState)
  | 0 => some ([], q)
  | k + 1 => do
      let (picked, q) ← picks ids nanos q k
      let (pick, q) ← q.stepShuffle (nanos k) ids 1
      some (picked ++ [pick], q.applied pick)

/-- A step that the queue takes by itself picks as `stepShuffle` does. -/
theorem alone_stepShuffle {files : Files} {s s' : AppState} {filter : QueueFilter} {ids : List ℕ}
    {nanos : UInt64} {delta : Int32} {pick : ℕ} {q : QueueState}
    {tr : List (QueueCall × QueueChoice)}
    (hids : listItemIdsByFilter files.index s.db filter.1 filter.2 = some ids)
    (hpick : s.queue.stepShuffle nanos ids delta = some (pick, q))
    (h : Alone (queueSemantics files) { s with queue := q } [.fetch pick] tr s') :
    ∃ tr, Alone (queueSemantics files) s [.stepShuffle delta filter] tr s' := by
  have hstep : (queueSemantics files).exec .tick 0 (.stepShuffle delta filter) s = s.andThen
      [if s.queue.shuffleRound.isEmpty then .listItemIds filter else .walkRound delta] := rfl
  unfold stepShuffle at hpick
  split at hpick
  · rename_i hempty
    rw [if_pos hempty] at hstep
    cases ids with
    | nil => cases hpick
    | cons id ids =>
      rw [if_neg (List.cons_ne_nil id ids)] at hpick
      have hlist : (queueSemantics files).exec .tick 0 (.listItemIds filter) s =
          s.andThen [.buildRound (id :: ids)] := by
        simp only [queueSemantics, QueueCall.exec, hids]
      have hbuild : (queueSemantics files).exec (.now nanos) 0 (.buildRound (id :: ids)) s =
          some { shared := { s with queue := q }, next := [.fetch pick] } := exec_buildRound files hpick
      have hbuild : ∃ tr, Alone (queueSemantics files) s [.buildRound (id :: ids)] tr s' :=
        ⟨_, .call hbuild h⟩
      obtain ⟨_, hbuild⟩ := hbuild
      have hlist : ∃ tr, Alone (queueSemantics files) s [.listItemIds filter] tr s' :=
        ⟨_, .call hlist hbuild⟩
      obtain ⟨_, hlist⟩ := hlist
      exact ⟨_, .call hstep hlist⟩
  · rename_i hempty
    rw [if_neg hempty] at hstep
    have hwalk : (queueSemantics files).exec (.now nanos) 0 (.walkRound delta) s =
        some { shared := { s with queue := q }, next := [.fetch pick] } := exec_walkRound files hpick
    have hwalk : ∃ tr, Alone (queueSemantics files) s [.walkRound delta] tr s' :=
      ⟨_, .call hwalk h⟩
    obtain ⟨_, hwalk⟩ := hwalk
    exact ⟨_, .call hstep hwalk⟩

variable {q : QueueState} (nanos : UInt64) {ids : List ℕ}

/-- A new round does not have the item to avoid at its target, if there is another item. -/
theorem buildShuffleRound_avoids {candidates : Array ℕ} {a target : ℕ}
    (hnd : candidates.toList.Nodup) (hsize : 1 < candidates.size) :
    (q.buildShuffleRound nanos candidates (some a) target).shuffleRound[target]? ≠ some a := by
  have hshuffled : Shuffled { q with shuffleRound := candidates } (shuffleFrom nanos
      { q with shuffleRound := candidates } (candidates.size - 1)) := shuffled_shuffleFrom _
  unfold buildShuffleRound
  dsimp only
  generalize shuffleFrom nanos { q with shuffleRound := candidates } (candidates.size - 1) = r
    at hshuffled ⊢
  have hperm : r.shuffleRound.Perm candidates := hshuffled.shuffleRound
  have hround : r.shuffleRound.toList.Nodup := hperm.toList.nodup_iff.2 hnd
  split
  · rename_i hc
    obtain ⟨ht, htarget⟩ := Array.getElem?_eq_some_iff.1 hc.2.2
    have hn := hperm.size_eq
    obtain ⟨halt, hne⟩ := avoiding_lt (hn ▸ ht) (draw_lt nanos (candidates.size - 1) r (by omega))
    have hdrawn : (draw nanos (candidates.size - 1) r).2.shuffleRound = r.shuffleRound :=
      congrArg (fun d => d.2.shuffleRound) (draw_with nanos (candidates.size - 1) r r.shuffleRound)
    rw [← hc.2.2, swap]
    show ((draw nanos (candidates.size - 1) r).2.shuffleRound.swapIfInBounds target _)[target]? ≠ _
    rw [hdrawn]
    exact Shuffle.swapIfInBounds_ne hround ht (Nat.lt_of_lt_of_eq halt hn.symm) hne
  · rename_i hnot
    exact fun h => hnot ⟨hsize, rfl, h⟩

theorem walk_on (h : q.shufflePos + 1 < q.shuffleRound.size) :
    q.walk nanos 1 = { q with shufflePos := q.shufflePos + 1 } := by
  have hone : (1 : Int32).toInt = 1 := rfl
  have hpos : ((q.shufflePos : Int) + 1).toNat = q.shufflePos + 1 := by omega
  rw [walk, hone, if_neg (by omega), hpos]

theorem walk_end (h : q.shufflePos + 1 = q.shuffleRound.size) : q.walk nanos 1 =
    { q.buildShuffleRound nanos q.shuffleRound q.lastDbId 0 with shufflePos := 0 } := by
  have hone : (1 : Int32).toInt = 1 := rfl
  have hlen : (q.shuffleRound.size : Int) ≤ q.shufflePos + 1 := by omega
  rw [walk, hone, if_pos (.inl hlen), if_pos hlen]

/-- The picks go in rounds over the ids, and the last of them, which is applied, is where the walk
stands. -/
structure Picking (ids : List ℕ) (q : QueueState) (picked : List ℕ) : Prop where
  walk : Walk ids q.shuffleRound.toList q.shufflePos picked
  last : q.lastDbId = q.shuffleRound[q.shufflePos]?
  applied : picked.getLast? = q.lastDbId
  differ : 1 < ids.length → picked.IsChain (· ≠ ·)

/-- A pick that is applied, if it is not the one before. -/
theorem picking_snoc {picked : List ℕ} {pick : ℕ}
    (hwalk : Walk ids q.shuffleRound.toList q.shufflePos (picked ++ [pick]))
    (hpick : q.shuffleRound[q.shufflePos]? = some pick)
    (hdiffer : 1 < ids.length → picked.IsChain (· ≠ ·) ∧ picked.getLast? ≠ some pick) :
    Picking ids (q.applied pick) (picked ++ [pick]) := by
  refine ⟨hwalk, hpick.symm, List.getLast?_concat, fun hlen => ?_⟩
  obtain ⟨hchain, hlast⟩ := hdiffer hlen
  refine List.isChain_append.2 ⟨hchain, List.isChain_singleton _, fun a ha b hb => ?_⟩
  rintro rfl
  rw [List.head?_cons, Option.mem_some_iff] at hb
  exact hlast (hb ▸ ha)

theorem stepShuffle_of_ne (h : q.shuffleRound ≠ #[]) (delta : Int32) :
    q.stepShuffle nanos ids delta = q.checkedWalk nanos delta :=
  if_neg (by simpa using h)

theorem picking_first (hids : ids ≠ []) (hround : q.shuffleRound = #[]) :
    ∃ pick q', q.stepShuffle nanos ids 1 = some (pick, q') ∧
      Picking ids (q'.applied pick) [pick] := by
  have hfirst : q.stepShuffle nanos ids 1 = q.checkedFirst nanos ids := by
    rw [stepShuffle, hround, if_pos (by simp), if_neg hids]
  have hperm : (q.buildShuffleRound nanos ids.toArray q.lastDbId 0).shuffleRound.Perm ids.toArray :=
    (shuffled_buildShuffleRound ..).shuffleRound
  have hlt : 0 < (q.buildShuffleRound nanos ids.toArray q.lastDbId 0).shuffleRound.size := by
    rw [size_buildShuffleRound, List.size_toArray]
    exact List.length_pos_of_ne_nil hids
  have hget := Array.getElem?_eq_getElem hlt
  refine ⟨_, _, by rw [hfirst, checkedFirst_eq, hget, Option.map_some], ?_⟩
  have hwalk : Walk ids _ 0 ([] ++ [_]) := Walk.start hperm.toList (by
    rw [Array.getElem?_toList]
    exact hget)
  exact picking_snoc hwalk hget fun _ => ⟨.nil, by simp⟩

theorem Picking.step {picked : List ℕ} (hnd : ids.Nodup) (h : Picking ids q picked) :
    ∃ pick q', q.stepShuffle nanos ids 1 = some (pick, q') ∧
      Picking ids (q'.applied pick) (picked ++ [pick]) := by
  have hlen : q.shuffleRound.size = ids.length := h.walk.perm.length_eq
  have hlt : q.shufflePos < q.shuffleRound.size := hlen ▸ h.walk.pos_lt
  have hne : q.shuffleRound ≠ #[] := fun h0 => by simp [h0] at hlt
  have hround : q.shuffleRound.toList.Nodup := h.walk.perm.nodup_iff.2 hnd
  have hlast : picked.getLast? = some q.shuffleRound[q.shufflePos] := by
    rw [h.applied, h.last, Array.getElem?_eq_getElem hlt]
  rw [stepShuffle_of_ne nanos hne, checkedWalk_eq]
  rcases Nat.lt_or_ge (q.shufflePos + 1) q.shuffleRound.size with hon | hend
  · rw [walk_on nanos hon]
    dsimp only
    have hget := Array.getElem?_eq_getElem hon
    refine ⟨_, _, by rw [hget, Option.map_some], picking_snoc (h.walk.advance ?_) hget fun hn => ?_⟩
    · rw [Array.getElem?_toList]
      exact hget
    · refine ⟨h.differ hn, fun heq => ?_⟩
      have hsame : q.shuffleRound.toList[q.shufflePos]? =
          q.shuffleRound.toList[q.shufflePos + 1]? := by
        rw [Array.getElem?_toList, Array.getElem?_toList, hget, Array.getElem?_eq_getElem hlt,
          ← hlast, heq]
      have := (List.getElem?_inj hlt hround).1 hsame
      omega
  · have hend : q.shufflePos + 1 = q.shuffleRound.size := by omega
    have hperm : (q.buildShuffleRound nanos q.shuffleRound q.lastDbId 0).shuffleRound.Perm
        q.shuffleRound := (shuffled_buildShuffleRound ..).shuffleRound
    have hsize : 0 < (q.buildShuffleRound nanos q.shuffleRound q.lastDbId 0).shuffleRound.size := by
      rw [hperm.size_eq]
      omega
    have hget := Array.getElem?_eq_getElem hsize
    rw [walk_end nanos hend]
    dsimp only
    refine ⟨_, _, by rw [hget, Option.map_some], picking_snoc
      (h.walk.renew (hend.trans hlen) (hperm.toList.trans h.walk.perm) ?_) hget fun hn => ?_⟩
    · rw [Array.getElem?_toList]
      exact hget
    · refine ⟨h.differ hn, fun heq => ?_⟩
      rw [hlast] at heq
      have havoid : (q.buildShuffleRound nanos q.shuffleRound (some q.shuffleRound[q.shufflePos])
          0).shuffleRound[0]? ≠ some q.shuffleRound[q.shufflePos] :=
        buildShuffleRound_avoids nanos hround (by omega)
      rw [← hlast, h.applied] at havoid
      exact havoid (by rw [hget, ← heq, ← hlast, h.applied])

theorem picks_picking (hnd : ids.Nodup) (hids : ids ≠ []) (hround : q.shuffleRound = #[])
    (nanos : ℕ → UInt64) (k : ℕ) :
    ∃ picked q', picks ids nanos q (k + 1) = some (picked, q') ∧ picked.length = k + 1 ∧
      Picking ids q' picked := by
  induction k with
  | zero =>
    obtain ⟨pick, q', hpick, hp⟩ := picking_first (nanos 0) hids hround
    refine ⟨[pick], q'.applied pick, ?_, rfl, hp⟩
    simp only [picks, hpick, Option.bind_eq_bind, Option.bind_some, List.nil_append]
  | succ k ih =>
    obtain ⟨picked, q', hpicked, hlen, hp⟩ := ih
    obtain ⟨pick, q'', hpick, hp⟩ := hp.step (nanos (k + 1)) hnd
    refine ⟨picked ++ [pick], q''.applied pick, ?_, by simp [hlen], hp⟩
    rw [picks, hpicked]
    simp only [hpick, Option.bind_eq_bind, Option.bind_some]

/-- From an empty round on, with nothing in between, the picks go in rounds over the candidates, and
none is picked twice in a row if there is another one. -/
theorem picks_inRounds (hnd : ids.Nodup) (hids : ids ≠ []) (hround : q.shuffleRound = #[])
    (nanos : ℕ → UInt64) (k : ℕ) :
    ∃ picked q', picks ids nanos q k = some (picked, q') ∧ picked.length = k ∧
      InRounds ids picked ∧ (1 < ids.length → picked.IsChain (· ≠ ·)) := by
  cases k with
  | zero =>
    refine ⟨[], q, rfl, rfl, fun j hj => ?_, fun _ => .nil⟩
    have := List.length_pos_of_ne_nil hids
    rw [List.length_nil, Nat.succ_mul] at hj
    omega
  | succ k =>
    obtain ⟨picked, q', hpicked, hlen, hp⟩ := picks_picking hnd hids hround nanos k
    exact ⟨picked, q', hpicked, hlen, hp.walk.inRounds, hp.differ⟩

theorem picks_inRounds_three : ∃ picked q', picks [1, 2, 3] (fun _ => 7)
    { (default : QueueState) with mode := .shuffle, lastDbId := some 2 } 8 = some (picked, q') ∧
      picked.length = 8 ∧ InRounds [1, 2, 3] picked ∧
        (1 < 3 → picked.IsChain (· ≠ ·)) :=
  picks_inRounds (by decide) (by decide) rfl (fun _ => 7) 8

end QueueState

end Waywallen
