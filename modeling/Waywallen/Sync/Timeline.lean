import Waywallen.Sync.Reaper

/-!
# The order of the points on the release timeline

Transferring a later point releases the earlier ones with it, so the points must be transferred in
increasing order. The reaper completes a point when its last record comes or its bucket times out,
whatever the other buckets hold; the order is kept exactly when no point is completed while an
earlier one is still to come.
-/

namespace Waywallen

/-- Nothing fails in completing a point. -/
def Ioctls.Succeed (io : Ioctls) : Prop :=
  io.importsProducer = true ∧ io.createsSyncobj = true ∧ io.signals = true ∧ io.joins = true ∧
    io.importsFile = true ∧ io.transfers = true

namespace Reaper

variable {s t : Reaper} {io : Ioctls} {point : ℕ} {bucket : Bucket} {timedOut : Bool}

/-! ## Completing one point -/

/-- `t` is `s` after an attempt to complete `point`; with `sure` the attempt succeeds. -/
structure Completes (sure : Prop) (point : ℕ) (s t : Reaper) : Prop where
  buckets : t.buckets = s.buckets
  points : t.points = s.points ∨ t.points = s.points ++ [point]
  of_sure : sure → t.points = s.points ++ [point]

theorem completes_transfer {sure : Prop} (tr : Transfer) (h : sure → io.transfers = true)
    (b : Bool) : Completes sure tr.point s (({ s with imported := b }).transfer io tr) := by
  rw [transfer]
  split
  · exact ⟨rfl, .inr (by simp [points]), fun _ => by simp [points]⟩
  · rename_i hfail
    exact ⟨rfl, .inl rfl, fun hsure => absurd (h hsure) hfail⟩

theorem completes_same {sure : Prop} (h : ¬sure) (b : Bool) :
    Completes sure point s { s with imported := b } :=
  ⟨rfl, .inl rfl, fun hsure => absurd hsure h⟩

theorem completes_advanceReleasePoint :
    Completes io.Succeed point s (s.advanceReleasePoint io point) := by
  rw [advanceReleasePoint]
  split
  · rename_i himport
    refine completes_same (fun hio => ?_) s.imported
    simp [hio.1] at himport
  · dsimp only
    split
    · rename_i hfail
      refine completes_same (fun hio => ?_) true
      simp [hio.2.1, hio.2.2.1] at hfail
    · exact completes_transfer ⟨point, [], [], false⟩ (fun hio => hio.2.2.2.2.2) true

theorem completes_flushBucket (s : Reaper) (io : Ioctls) (point : ℕ) (bucket : Bucket)
    (timedOut : Bool) :
    Completes (io.Succeed ∧ bucket.handles ≠ []) point s
      (s.flushBucket io point bucket timedOut) := by
  have htransfer (handles : List DisplayId) :
      Completes (io.Succeed ∧ bucket.handles ≠ []) point s
        (({ s with imported := true }).transfer io ⟨point, bucket.handles, handles, timedOut⟩) :=
    completes_transfer ⟨point, bucket.handles, handles, timedOut⟩ (fun h => h.1.2.2.2.2.2) true
  rw [flushBucket]
  split
  · rename_i hnil
    exact completes_same (fun h => h.2 hnil) s.imported
  · split
    · rename_i himport
      refine completes_same (fun h => ?_) s.imported
      simp [h.1.1] at himport
    · dsimp only
      split
      · rename_i hjoin
        refine completes_same (fun h => ?_) true
        simp [h.1.2.2.2.1] at hjoin
      · split
        · exact htransfer _
        · split
          · exact htransfer _
          · split
            · rename_i hfail
              refine completes_same (fun h => ?_) true
              simp [h.1.2.1, h.1.2.2.2.2.1] at hfail
            · exact htransfer _

/-! ## The order of the steps -/

/-- The bucket of a record when the record is put into it. -/
def entryFor (s : Reaper) (now : ℕ) (r : FrameRecord) (handle : DisplayId) : Bucket :=
  let entry := (s.buckets.lookup r.releasePoint).getD ⟨[], r.expectedCount, now + bucketTimeout⟩
  { entry with
    expected := max entry.expected r.expectedCount
    handles := entry.handles ++ [handle] }

/-- The record completes its point: it has no recipient, or it is the last one of its bucket. -/
def isLast (s : Reaper) (r : FrameRecord) : Bool :=
  match r.consumerHandle with
  | none => true
  | some handle => (s.entryFor 0 r handle).expected ≤ (s.entryFor 0 r handle).handles.length

/-- The points of the buckets that a record leaves alone. -/
def otherPoints (s : Reaper) (r : FrameRecord) : List ℕ :=
  match r.consumerHandle with
  | none => s.buckets.keys
  | some _ => s.buckets.keys.filter (· ≠ r.releasePoint)

/-- The step completes its points in order: a record is for a later point than those transferred,
and a point is completed when no bucket of an earlier one is left. -/
def InOrder (s : Reaper) : Wake → Prop
  | .record _ _ r => (∀ p ∈ s.points, p < r.releasePoint) ∧
      (s.isLast r = true → ∀ q ∈ s.otherPoints r, r.releasePoint < q)
  | .deadline now _ => (s.expired now).Pairwise (· < ·) ∧
      ∀ p ∈ s.expired now, ∀ q ∈ s.buckets.keys, q ∉ s.expired now → p < q
  | .promote _ => True

instance InOrder.decidable (s : Reaper) : (w : Wake) → Decidable (s.InOrder w)
  | .record _ _ r => inferInstanceAs (Decidable ((∀ p ∈ s.points, p < r.releasePoint) ∧
      (s.isLast r = true → ∀ q ∈ s.otherPoints r, r.releasePoint < q)))
  | .deadline now _ => inferInstanceAs (Decidable ((s.expired now).Pairwise (· < ·) ∧
      ∀ p ∈ s.expired now, ∀ q ∈ s.buckets.keys, q ∉ s.expired now → p < q))
  | .promote _ => .isTrue trivial

/-- The points are in order, and those still to come are later. -/
structure Ordered (s : Reaper) : Prop where
  points : s.points.Pairwise (· < ·)
  buckets : ∀ p ∈ s.points, ∀ q ∈ s.buckets.keys, p < q

theorem Ordered.of_completes {sure : Prop} (h : Completes sure point s t) (hs : s.Ordered)
    (hnew : ∀ p ∈ s.points, p < point) (hopen : ∀ q ∈ s.buckets.keys, point < q) :
    t.Ordered := by
  rcases h.points with hp | hp
  · exact ⟨hp ▸ hs.points, hp ▸ h.buckets ▸ hs.buckets⟩
  · refine ⟨hp ▸ List.pairwise_append.2 ⟨hs.points, List.pairwise_singleton _ _, ?_⟩, ?_⟩
    · intro p hmem q hq
      exact List.mem_singleton.1 hq ▸ hnew p hmem
    · rw [hp, h.buckets]
      intro p hmem q hq
      rcases List.mem_append.1 hmem with hmem | hmem
      · exact hs.buckets p hmem q hq
      · exact List.mem_singleton.1 hmem ▸ hopen q hq

/-! ## One step keeps the order -/

theorem mem_keys_erase {p q : ℕ} :
    q ∈ (s.buckets.erase p).keys ↔ q ∈ s.buckets.keys ∧ q ≠ p := by
  rw [← AList.mem_keys, ← AList.mem_keys, AList.mem_erase, and_comm]

theorem mem_expired {now q : ℕ} (h : q ∈ s.expired now) : q ∈ s.buckets.keys := by
  obtain ⟨e, he, rfl⟩ := List.mem_map.1 h
  exact List.mem_map_of_mem (List.mem_of_mem_filter he)

theorem nodup_expired {now : ℕ} : (s.expired now).Nodup :=
  s.buckets.keys_nodup.sublist (List.filter_sublist.map _)

/-- Flushing points in order, before those that stay, keeps the order. -/
theorem Ordered.flushExpired {ios : ℕ → Ioctls} {ps : List ℕ} (hs : s.Ordered)
    (hps : ps.Pairwise (· < ·)) (hrest : ∀ p ∈ ps, ∀ q ∈ s.buckets.keys, q ∉ ps → p < q) :
    (s.flushExpired ios ps).Ordered := by
  induction ps generalizing s with
  | nil => exact hs
  | cons p ps ih =>
    obtain ⟨hp, hps⟩ := List.pairwise_cons.1 hps
    rw [Reaper.flushExpired]
    cases hlook : s.buckets.lookup p with
    | none =>
      refine ih hs hps fun p' hp' q hq hnot => ?_
      by_cases hqp : q = p
      · subst hqp
        obtain ⟨b, hb⟩ := (HashMap.mem_keys_iff _ _).1 hq
        rw [hlook] at hb
        cases hb
      · exact hrest p' (.tail _ hp') q hq (List.not_mem_cons_of_ne_of_not_mem hqp hnot)
    | some bucket =>
      have herase : ({ s with buckets := s.buckets.erase p } : Reaper).Ordered :=
        ⟨hs.points, fun p' hp' q hq => hs.buckets p' hp' q (mem_keys_erase.1 hq).1⟩
      have hmem : p ∈ s.buckets.keys := (HashMap.mem_keys_iff _ _).2 ⟨_, hlook⟩
      have hcompletes := completes_flushBucket { s with buckets := s.buckets.erase p } (ios p) p
        bucket true
      refine ih (herase.of_completes hcompletes (fun p' hp' => hs.buckets p' hp' p hmem)
        fun q hq => ?_) hps fun p' hp' q hq hnot => ?_
      · obtain ⟨hq, hqp⟩ := mem_keys_erase.1 hq
        by_cases hqs : q ∈ ps
        · exact hp q hqs
        · exact hrest p (.head _) q hq (List.not_mem_cons_of_ne_of_not_mem hqp hqs)
      · rw [hcompletes.buckets] at hq
        obtain ⟨hq, hqp⟩ := mem_keys_erase.1 hq
        exact hrest p' (.tail _ hp') q hq (List.not_mem_cons_of_ne_of_not_mem hqp hnot)

/-- What a record does: it completes its point and leaves the other buckets, or its bucket stays
open. -/
theorem receive_cases (s : Reaper) (now : ℕ) (io : Ioctls) (r : FrameRecord) :
    s.isLast r = true ∧ (∃ s₀ : Reaper, s₀.points = s.points ∧
      (∀ q, q ∈ s₀.buckets.keys ↔ q ∈ s.otherPoints r) ∧
      (∀ q b, s₀.buckets.lookup q = some b → s.buckets.lookup q = some b) ∧
      Completes io.Succeed r.releasePoint s₀ (s.receive now io r)) ∨
    s.isLast r = false ∧ (s.receive now io r).points = s.points ∧
      ∃ b : Bucket, b.handles ≠ [] ∧
        (s.receive now io r).buckets = s.buckets.insert r.releasePoint b := by
  rcases hr : r.consumerHandle with _ | handle
  · refine .inl ⟨by rw [isLast, hr], s, rfl, ?_, fun _ _ h => h, ?_⟩
    · rw [otherPoints, hr]
      exact fun _ => .rfl
    · rw [receive, hr]
      exact completes_advanceReleasePoint
  · have hentry : s.entryFor 0 r handle =
        { s.entryFor now r handle with deadline := (s.entryFor 0 r handle).deadline } := by
      rw [entryFor, entryFor]
      cases s.buckets.lookup r.releasePoint <;> rfl
    have hne : (s.entryFor now r handle).handles ≠ [] := by
      rw [entryFor]
      simp
    have hreceive : s.receive now io r =
        if (s.entryFor now r handle).expected ≤ (s.entryFor now r handle).handles.length then
          { s with buckets := s.buckets.erase r.releasePoint }.flushBucket io r.releasePoint
            (s.entryFor now r handle) false
        else { s with
          buckets := s.buckets.insert r.releasePoint (s.entryFor now r handle) } := by
      rw [receive, hr]
      rfl
    have hlast : s.isLast r =
        decide ((s.entryFor now r handle).expected ≤ (s.entryFor now r handle).handles.length) := by
      rw [isLast, hr]
      dsimp only
      rw [hentry]
    by_cases hfull : (s.entryFor now r handle).expected ≤ (s.entryFor now r handle).handles.length
    · rw [hreceive, if_pos hfull, hlast]
      refine .inl ⟨decide_eq_true hfull, { s with buckets := s.buckets.erase r.releasePoint }, rfl,
        fun q => ?_, fun q b hq => ?_, ?_⟩
      · rw [otherPoints, hr, mem_keys_erase, List.mem_filter, decide_eq_true_iff]
      · rw [HashMap.lookup_erase_eq] at hq
        split at hq
        · cases hq
        · exact hq
      · have h := completes_flushBucket { s with buckets := s.buckets.erase r.releasePoint } io
          r.releasePoint (s.entryFor now r handle) false
        exact ⟨h.buckets, h.points, fun hio => h.of_sure ⟨hio, hne⟩⟩
    · rw [hreceive, if_neg hfull, hlast]
      exact .inr ⟨decide_eq_false hfull, rfl, _, hne, rfl⟩

theorem mem_keys_insert {p q : ℕ} {b : Bucket} :
    q ∈ (s.buckets.insert p b).keys ↔ q = p ∨ q ∈ s.buckets.keys := by
  rw [← AList.mem_keys, ← AList.mem_keys, AList.mem_insert]

theorem keys_promote {p q : ℕ} : q ∈ (s.buckets.promote p).keys ↔ q ∈ s.buckets.keys := by
  rw [HashMap.mem_keys_iff, HashMap.mem_keys_iff, HashMap.lookup_promote]

theorem Ordered.step {w : Wake} (hs : s.Ordered) (hw : s.InOrder w) (h : s.step w = some t) :
    t.Ordered := by
  cases w with
  | record now io r =>
    obtain rfl := Option.some_inj.1 h
    obtain ⟨hnew, hlast⟩ := hw
    rcases s.receive_cases now io r with ⟨hl, s₀, hp, hkeys, -, hc⟩ | ⟨-, hp, b, -, hb⟩
    · have hs₀ : s₀.Ordered := by
        refine ⟨hp ▸ hs.points, fun p hp' q hq => hs.buckets p (hp ▸ hp') q ?_⟩
        rw [hkeys, otherPoints] at hq
        cases hr : r.consumerHandle with
        | none =>
          rw [hr] at hq
          exact hq
        | some handle =>
          rw [hr] at hq
          exact (List.mem_filter.1 hq).1
      exact hs₀.of_completes hc (fun p hp' => hnew p (hp ▸ hp'))
        fun q hq => hlast hl q ((hkeys q).1 hq)
    · refine ⟨hp ▸ hs.points, fun p hp' q hq => ?_⟩
      rw [hp] at hp'
      rw [hb, mem_keys_insert] at hq
      rcases hq with rfl | hq
      · exact hnew p hp'
      · exact hs.buckets p hp' q hq
  | deadline now io =>
    obtain rfl := Option.some_inj.1 h
    exact hs.flushExpired hw.1 hw.2
  | promote point =>
    obtain rfl := Option.some_inj.1 h
    exact ⟨hs.points, fun p hp q hq => hs.buckets p hp q (keys_promote.1 hq)⟩

theorem ordered_new : new.Ordered :=
  ⟨.nil, fun _ h => absurd h List.not_mem_nil⟩

/-! ## A drained reaper that is in order has taken its steps in order -/

/-- No bucket is without a handle. -/
def Filled (s : Reaper) : Prop :=
  ∀ q b, s.buckets.lookup q = some b → b.handles ≠ []

/-- Nothing fails in a step. -/
def Wake.Succeeds : Wake → Prop
  | .record _ io _ => io.Succeed
  | .deadline _ ios => ∀ p, (ios p).Succeed
  | .promote _ => True

/-- `t` is `s` after points were added to the timeline; what was open in `s` was added or is still
open. -/
structure Adds (s t : Reaper) (added : List ℕ) : Prop where
  points : t.points = s.points ++ added
  keys : ∀ q ∈ s.buckets.keys, q ∈ added ∨ q ∈ t.buckets.keys
  filled : t.Filled

theorem Adds.trans {u : Reaper} {ps qs : List ℕ} (h : s.Adds t ps) (h' : t.Adds u qs) :
    s.Adds u (ps ++ qs) where
  points := by rw [h'.points, h.points, List.append_assoc]
  keys q hq := by
    rcases h.keys q hq with hq | hq
    · exact .inl (List.mem_append_left _ hq)
    · exact (h'.keys q hq).imp (List.mem_append_right _) id
  filled := h'.filled

/-- Flushing the points of open buckets adds them all. -/
theorem adds_flushExpired {ios : ℕ → Ioctls} {ps : List ℕ} (hs : s.Filled)
    (hios : ∀ p, (ios p).Succeed) (hps : ps.Nodup) (hopen : ∀ p ∈ ps, p ∈ s.buckets.keys) :
    s.Adds (s.flushExpired ios ps) ps ∧
      ∀ q, q ∈ (s.flushExpired ios ps).buckets.keys ↔ q ∈ s.buckets.keys ∧ q ∉ ps := by
  induction ps generalizing s with
  | nil => exact ⟨⟨(List.append_nil _).symm, fun q hq => .inr hq, hs⟩, by simp [flushExpired]⟩
  | cons p ps ih =>
    obtain ⟨hp, hps⟩ := List.nodup_cons.1 hps
    obtain ⟨bucket, hlook⟩ := (HashMap.mem_keys_iff _ _).1 (hopen p (.head _))
    have hc := completes_flushBucket { s with buckets := s.buckets.erase p } (ios p) p bucket true
    set s' := ({ s with buckets := s.buckets.erase p } : Reaper).flushBucket (ios p) p bucket true
      with hs'
    have hkeys (q : ℕ) : q ∈ s'.buckets.keys ↔ q ∈ s.buckets.keys ∧ q ≠ p := by
      rw [hc.buckets]
      exact mem_keys_erase
    have hfilled : s'.Filled := fun q b hq => by
      rw [hc.buckets, HashMap.lookup_erase_eq] at hq
      split at hq
      · cases hq
      · exact hs q b hq
    have hopen' : ∀ q ∈ ps, q ∈ s'.buckets.keys := fun q hq =>
      (hkeys q).2 ⟨hopen q (.tail _ hq), fun h => hp (h ▸ hq)⟩
    obtain ⟨hadds, hrest⟩ := ih hfilled hps hopen'
    have hrun : s.flushExpired ios (p :: ps) = s'.flushExpired ios ps := by
      rw [flushExpired, hlook]
    rw [hrun]
    have hfirst : s.Adds s' [p] := by
      refine ⟨hc.of_sure ⟨hios p, hs p bucket hlook⟩, fun q hq => ?_, hfilled⟩
      by_cases hqp : q = p
      · exact .inl (hqp ▸ .head _)
      · exact .inr ((hkeys q).2 ⟨hq, hqp⟩)
    refine ⟨hfirst.trans hadds, fun q => ?_⟩
    rw [hrest, hkeys, List.mem_cons, not_or, and_assoc]

theorem mem_otherPoints {r : FrameRecord} {q : ℕ} (hq : q ∈ s.buckets.keys) :
    q = r.releasePoint ∨ q ∈ s.otherPoints r := by
  rw [otherPoints]
  cases r.consumerHandle with
  | none => exact .inr hq
  | some handle =>
    by_cases hqr : q = r.releasePoint
    · exact .inl hqr
    · exact .inr (List.mem_filter.2 ⟨hq, decide_eq_true hqr⟩)

/-- A step that succeeds, before others that complete all that is open, is in order when all the
points are. -/
theorem inOrder_of_pairwise {u : Reaper} {w : Wake} (hs : s.Filled) (hw : w.Succeeds)
    (h : s.step w = some t) (hrest : t.Filled → ∃ rest, t.Adds u rest)
    (hdrained : u.buckets.keys = []) (hsorted : u.points.Pairwise (· < ·)) :
    s.InOrder w ∧ ∃ added, s.Adds t added := by
  have hopen {rest : List ℕ} (hadds : t.Adds u rest) (q : ℕ) (hq : q ∈ t.buckets.keys) : q ∈ rest := by
    rcases hadds.keys q hq with hq | hq
    · exact hq
    · rw [hdrained] at hq
      cases hq
  cases w with
  | record now io r =>
    obtain rfl := Option.some_inj.1 h
    rcases s.receive_cases now io r with ⟨hl, s₀, hp, hkeys, hlook, hc⟩ | ⟨hl, hp, b, hne, hb⟩
    · have hpoints := hc.of_sure hw
      rw [hp] at hpoints
      have hfilled : (s.receive now io r).Filled := fun q b hq =>
        hs q b (hlook q b (hc.buckets ▸ hq))
      obtain ⟨rest, hadds⟩ := hrest hfilled
      rw [hadds.points, hpoints, List.append_assoc, List.pairwise_append] at hsorted
      obtain ⟨-, hafter, hbefore⟩ := hsorted
      refine ⟨⟨fun p hp => hbefore p hp _ (.head _), fun _ q hq => ?_⟩, [r.releasePoint], hpoints,
        fun q hq => ?_, hfilled⟩
      · have hmem : q ∈ rest := hopen hadds q (hc.buckets ▸ (hkeys q).2 hq)
        exact List.rel_of_pairwise_cons hafter hmem
      · rcases mem_otherPoints (r := r) hq with hqr | hq
        · exact .inl (List.mem_singleton.2 hqr)
        · exact .inr (hc.buckets ▸ (hkeys q).2 hq)
    · have hfilled : (s.receive now io r).Filled := fun q b' hq => by
        rw [hb, HashMap.lookup_insert_eq] at hq
        split at hq
        · exact Option.some_inj.1 hq ▸ hne
        · exact hs q b' hq
      obtain ⟨rest, hadds⟩ := hrest hfilled
      have hmem : r.releasePoint ∈ rest :=
        hopen hadds _ (hb ▸ mem_keys_insert.2 (.inl rfl))
      rw [hadds.points, hp, List.pairwise_append] at hsorted
      refine ⟨⟨fun p hp => hsorted.2.2 p hp _ hmem, fun h => absurd h (by simp [hl])⟩, [], ?_,
        fun q hq => .inr (hb ▸ mem_keys_insert.2 (.inr hq)), hfilled⟩
      rw [hp, List.append_nil]
  | deadline now ios =>
    obtain rfl := Option.some_inj.1 h
    have hnodup : (s.expired now).Nodup := nodup_expired
    obtain ⟨hflush, hkeys⟩ := adds_flushExpired hs hw hnodup fun p hp => mem_expired hp
    obtain ⟨rest, hadds⟩ := hrest hflush.filled
    rw [hadds.points, hflush.points, List.append_assoc, List.pairwise_append,
      List.pairwise_append] at hsorted
    exact ⟨⟨hsorted.2.1.1, fun p hp q hq hnot =>
      hsorted.2.1.2.2 p hp q (hopen hadds q ((hkeys q).2 ⟨hq, hnot⟩))⟩, _, hflush⟩
  | promote point =>
    obtain rfl := Option.some_inj.1 h
    refine ⟨trivial, [], (List.append_nil _).symm, fun q hq => .inr (keys_promote.2 hq),
      fun q b hq => hs q b ?_⟩
    rwa [HashMap.lookup_promote] at hq

theorem along_inOrder_of_pairwise {u : Reaper} {ws : List Wake} (hs : s.Filled)
    (hws : ∀ w ∈ ws, w.Succeeds) (h : Transition.run Reaper.step s ws = some u)
    (hdrained : u.buckets.keys = []) (hsorted : u.points.Pairwise (· < ·)) :
    Transition.Along Reaper.step InOrder s ws ∧ ∃ added, s.Adds u added := by
  induction ws generalizing s with
  | nil =>
    obtain rfl := Option.some_inj.1 h
    exact ⟨trivial, [], (List.append_nil _).symm, fun q hq => .inr hq, hs⟩
  | cons w ws ih =>
    obtain ⟨t, ht, hrun⟩ := (Transition.run_cons_eq_some _).1 h
    have hrest (hfilled : t.Filled) := ih hfilled (fun w hw => hws w (.tail _ hw)) hrun
    obtain ⟨hw, added, hadds⟩ := inOrder_of_pairwise hs (hws w (.head _)) ht
      (fun hfilled => (hrest hfilled).2) hdrained hsorted
    obtain ⟨halong, rest, hadds'⟩ := hrest hadds.filled
    refine ⟨Transition.along_cons.2 ⟨hw, fun t' ht' => ?_⟩, _, hadds.trans hadds'⟩
    obtain rfl := Option.some_inj.1 (ht.symm.trans ht')
    exact halong

/-- The points are transferred in increasing order when every step is in order, and only then if
nothing fails and every bucket is flushed in the end. -/
theorem increasing_of_inOrder {ws : List Wake} (h : Transition.run Reaper.step new ws = some s) :
    (Transition.Along Reaper.step InOrder new ws → s.points.Pairwise (· < ·)) ∧
    ((∀ w ∈ ws, w.Succeeds) → s.buckets.keys = [] → s.points.Pairwise (· < ·) →
      Transition.Along Reaper.step InOrder new ws) := by
  constructor
  · intro halong
    have hs : s.Ordered := Transition.invariant_of_run
      (fun s w t hs hw ht => hs.step hw ht) ordered_new halong h
    exact hs.points
  · intro hws hdrained hsorted
    have hnew : new.Filled := fun q b hq => by
      rw [new, HashMap.lookup_empty] at hq
      cases hq
    exact (along_inOrder_of_pairwise hnew hws h hdrained hsorted).1

/-! ## Frames and the records of their displays -/

/-- A frame that the renderer emitted and the displays it was fanned out to. -/
structure Emission where
  point : ℕ
  displays : List DisplayId

/-- One record for each display, with the fan-out width, or one without a display. -/
def Emission.records (e : Emission) : List FrameRecord :=
  if e.displays = [] then [⟨e.point, none, 0⟩]
  else e.displays.map fun d => ⟨e.point, some d, e.displays.length⟩

def Wake.record? : Wake → Option FrameRecord
  | .record _ _ r => some r
  | _ => none

/-- The records reach the reaper in some order that keeps those of each display in the order of the
frames. -/
def Arrive (es : List Emission) (ws : List Wake) : Prop :=
  ∀ h : Option DisplayId, (ws.filterMap Wake.record?).filter (fun r => r.consumerHandle = h) =
    (es.flatMap Emission.records).filter fun r => r.consumerHandle = h

/-- Every system call succeeds. -/
def fine : Ioctls :=
  ⟨true, true, true, true, true, fun _ => true, fun _ => true, true, true⟩

/-- Display 2 answers the first frame before display 1 answers the second. -/
def inTurn : List Wake :=
  [.record 0 fine ⟨1, some 1, 2⟩, .record 5 fine ⟨1, some 2, 2⟩, .record 9 fine ⟨2, some 1, 1⟩]

theorem increasing_of_inOrder_inTurn :
    (Transition.reached Reaper.step new inTurn (by decide +kernel)).points.Pairwise (· < ·) :=
  (increasing_of_inOrder (Transition.run_reached _ _)).1 (by decide)

/-- Display 2 is slow: the second frame, which only display 1 was given, is released first. -/
def overtaking : List Wake :=
  [.record 0 fine ⟨1, some 1, 2⟩, .record 5 fine ⟨2, some 1, 1⟩, .record 9 fine ⟨1, some 2, 2⟩]

theorem not_increasing : ¬∀ (es : List Emission) (ws : List Wake) (s : Reaper),
    es.Pairwise (fun e f => e.point < f.point) → Arrive es ws →
    Transition.run Reaper.step new ws = some s → s.points.Pairwise (· < ·) := by
  intro h
  have harrive : Arrive [⟨1, [1, 2]⟩, ⟨2, [1]⟩] overtaking := by
    intro d
    rcases d with _ | _ | _ | _ | d <;> rfl
  have hrun : Transition.run Reaper.step new overtaking =
      some (Transition.reached Reaper.step new overtaking (by decide)) :=
    Transition.run_reached _ _
  have hsorted := h _ _ _ (by decide) harrive hrun
  revert hsorted
  decide

end Reaper

end Waywallen
