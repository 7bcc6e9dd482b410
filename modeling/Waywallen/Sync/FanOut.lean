import Waywallen.Daemon.Channels
import Waywallen.Sync.Timeline

/-!
# Fan-out

A frame is sent to some displays, and each of them sends a record to the reaper that says how many
of them there are. The reaper counts the records of a point: the count stands for the displays as
long as each frame is sent once, with its full width.
-/

namespace Waywallen

open TaskPool

/-! ## What the reaper has gathered -/

/-- The number of records for a point that come from a display. -/
def recordsOf (rs : List FrameRecord) (point : ℕ) (d : DisplayId) : ℕ :=
  rs.countP fun r => r.releasePoint = point ∧ r.consumerHandle = some d

/-- The handles gathered for a point come from its records, and at least `expected` are waited
for. -/
structure Fills (rs : List FrameRecord) (point : ℕ) (handles : List DisplayId) (expected : ℕ) :
    Prop where
  count_le : ∀ d, handles.count d ≤ recordsOf rs point d
  expected : ∃ r ∈ rs, r.releasePoint = point ∧ r.consumerHandle ≠ none ∧
    r.expectedCount ≤ expected

/-- What a reaper that has received the records `rs` holds. -/
structure Gathered (rs : List FrameRecord) (s : Reaper) : Prop where
  buckets : ∀ p b, s.buckets.lookup p = some b → Fills rs p b.handles b.expected
  timeline : ∀ t ∈ s.timeline, t.timedOut = false →
    (∃ r ∈ rs, r.releasePoint = t.point ∧ r.consumerHandle = none) ∨
      Fills rs t.point t.handles t.handles.length

section Reaper

variable {rs : List FrameRecord} {s t : Reaper} {point n : ℕ} {handles : List DisplayId}

theorem recordsOf_append (rs qs : List FrameRecord) (point : ℕ) (d : DisplayId) :
    recordsOf (rs ++ qs) point d = recordsOf rs point d + recordsOf qs point d :=
  List.countP_append

theorem Fills.append (h : Fills rs point handles n) (qs : List FrameRecord) :
    Fills (rs ++ qs) point handles n where
  count_le d := (h.count_le d).trans (recordsOf_append .. ▸ Nat.le_add_right _ _)
  expected := by
    obtain ⟨r, hr, h⟩ := h.expected
    exact ⟨r, List.mem_append_left _ hr, h⟩

theorem Fills.mono (h : Fills rs point handles n) {m : ℕ} (hnm : n ≤ m) :
    Fills rs point handles m where
  count_le := h.count_le
  expected := by
    obtain ⟨r, hr, hp, hc, hn⟩ := h.expected
    exact ⟨r, hr, hp, hc, hn.trans hnm⟩

/-- The bucket of a record, after the record has been put into it. -/
theorem Gathered.entryFor (hs : Gathered rs s) (now : ℕ) {r : FrameRecord} {d : DisplayId}
    (hr : r.consumerHandle = some d) : Fills (rs ++ [r]) r.releasePoint
      (s.entryFor now r d).handles (s.entryFor now r d).expected := by
  have hone (e : DisplayId) : ([d] : List DisplayId).count e ≤ recordsOf [r] r.releasePoint e := by
    by_cases he : d = e
    · subst he
      simp [recordsOf, hr]
    · simp [he]
  refine ⟨fun e => ?_, r, by simp, rfl, by simp [hr], le_max_right _ _⟩
  rw [Reaper.entryFor, List.count_append, recordsOf_append]
  refine Nat.add_le_add ?_ (hone e)
  cases hb : s.buckets.lookup r.releasePoint with
  | none => simp
  | some b => exact (hs.buckets _ b hb).count_le e

/-- `t` is `s` with at most transfer `tr` added to the timeline. -/
structure Reaper.Transfers (tr : Transfer → Prop) (s t : Reaper) : Prop where
  buckets : t.buckets = s.buckets
  timeline : t.timeline = s.timeline ∨ ∃ e, tr e ∧ t.timeline = s.timeline ++ [e]

theorem Reaper.transfers_transfer {tr : Transfer → Prop} {e : Transfer} (he : tr e) (s : Reaper)
    (io : Ioctls) (imported : Bool) :
    s.Transfers tr (({ s with imported }).transfer io e) := by
  rw [transfer]
  split
  · exact ⟨rfl, .inr ⟨e, he, rfl⟩⟩
  · exact ⟨rfl, .inl rfl⟩

/-- What completing a point adds to the timeline. -/
theorem Reaper.transfers_flushBucket (s : Reaper) (io : Ioctls) (point : ℕ) (b : Bucket)
    (timedOut : Bool) :
    s.Transfers (fun e => e.point = point ∧ e.handles = b.handles ∧ e.timedOut = timedOut)
      (s.flushBucket io point b timedOut) := by
  rw [flushBucket]
  dsimp only
  repeat' split
  all_goals first
    | exact ⟨rfl, .inl rfl⟩
    | exact s.transfers_transfer ⟨rfl, rfl, rfl⟩ io true

theorem Reaper.transfers_advanceReleasePoint (s : Reaper) (io : Ioctls) (point : ℕ) :
    s.Transfers (fun e => e.point = point) (s.advanceReleasePoint io point) := by
  rw [advanceReleasePoint]
  dsimp only
  repeat' split
  · exact ⟨rfl, .inl rfl⟩
  · exact ⟨rfl, .inl rfl⟩
  · refine s.transfers_transfer ?_ io true
    rfl

theorem Gathered.append (hs : Gathered rs s) (qs : List FrameRecord) : Gathered (rs ++ qs) s where
  buckets p b hb := (hs.buckets p b hb).append qs
  timeline t ht hout := by
    rcases hs.timeline t ht hout with ⟨r, hr, h⟩ | h
    · exact .inl ⟨r, List.mem_append_left _ hr, h⟩
    · exact .inr (h.append qs)

theorem Gathered.erase (hs : Gathered rs s) (p : ℕ) :
    Gathered rs { s with buckets := s.buckets.erase p } where
  buckets q b hb := by
    rw [HashMap.lookup_erase_eq] at hb
    split at hb
    · cases hb
    · exact hs.buckets q b hb
  timeline := hs.timeline

/-- A point is completed by a time-out, or with as many handles as were expected. -/
theorem Gathered.flushBucket (hs : Gathered rs s) (io : Ioctls) {b : Bucket} {timedOut : Bool}
    (hb : timedOut = false → Fills rs point b.handles b.handles.length) :
    Gathered rs (s.flushBucket io point b timedOut) := by
  obtain ⟨hbuckets, htimeline⟩ := s.transfers_flushBucket io point b timedOut
  refine ⟨hbuckets ▸ hs.buckets, fun t ht hout => ?_⟩
  rcases htimeline with h | ⟨e, ⟨rfl, hhandles, rfl⟩, h⟩
  · exact hs.timeline t (h ▸ ht) hout
  · rw [h] at ht
    rcases List.mem_append.1 ht with ht | ht
    · exact hs.timeline t ht hout
    · obtain rfl := List.mem_singleton.1 ht
      exact .inr (hhandles ▸ hb hout)

theorem Gathered.flushExpired (hs : Gathered rs s) (ios : ℕ → Ioctls) (ps : List ℕ) :
    Gathered rs (s.flushExpired ios ps) := by
  induction ps generalizing s with
  | nil => exact hs
  | cons p ps ih =>
    rw [Reaper.flushExpired]
    cases s.buckets.lookup p with
    | none => exact ih hs
    | some b => exact ih ((hs.erase p).flushBucket (ios p) fun h => Bool.noConfusion h)

theorem Gathered.receive (hs : Gathered rs s) (now : ℕ) (io : Ioctls) (r : FrameRecord) :
    Gathered (rs ++ [r]) (s.receive now io r) := by
  cases hr : r.consumerHandle with
  | none =>
    rw [Reaper.receive, hr]
    obtain ⟨hbuckets, htimeline⟩ := s.transfers_advanceReleasePoint io r.releasePoint
    refine ⟨hbuckets ▸ (hs.append [r]).buckets, fun t ht hout => ?_⟩
    rcases htimeline with h | ⟨e, he, h⟩
    · exact (hs.append [r]).timeline t (h ▸ ht) hout
    · dsimp only at ht
      rw [h] at ht
      rcases List.mem_append.1 ht with ht | ht
      · exact (hs.append [r]).timeline t ht hout
      · obtain rfl := List.mem_singleton.1 ht
        exact .inl ⟨r, by simp, he.symm, hr⟩
  | some d =>
    have hentry := hs.entryFor now hr
    have hreceive : s.receive now io r =
        if (s.entryFor now r d).expected ≤ (s.entryFor now r d).handles.length then
          { s with buckets := s.buckets.erase r.releasePoint }.flushBucket io r.releasePoint
            (s.entryFor now r d) false
        else { s with buckets := s.buckets.insert r.releasePoint (s.entryFor now r d) } := by
      rw [Reaper.receive, hr]
      rfl
    rw [hreceive]
    split
    · exact ((hs.append [r]).erase _).flushBucket io fun _ => hentry.mono ‹_›
    · refine ⟨fun p b hb => ?_, (hs.append [r]).timeline⟩
      rw [HashMap.lookup_insert_eq] at hb
      split at hb
      · rename_i hp
        subst hp
        obtain rfl := Option.some_inj.1 hb
        exact hentry
      · exact (hs.append [r]).buckets p b hb

theorem Gathered.step {w : Reaper.Wake} (hs : Gathered rs s) (h : s.step w = some t) :
    Gathered (rs ++ w.record?.toList) t := by
  cases w with
  | record now io r =>
    obtain rfl := Option.some_inj.1 h
    exact hs.receive now io r
  | deadline now ios =>
    obtain rfl := Option.some_inj.1 h
    exact (hs.flushExpired ios _).append []
  | promote p =>
    obtain rfl := Option.some_inj.1 h
    have hpromote : Gathered rs { s with buckets := s.buckets.promote p } :=
      ⟨fun q b hb => hs.buckets q b ((HashMap.lookup_promote s.buckets p q).symm.trans hb),
        hs.timeline⟩
    exact hpromote.append []

theorem Gathered.run {ws : List Reaper.Wake} (hs : Gathered rs s)
    (h : Transition.run Reaper.step s ws = some t) :
    Gathered (rs ++ ws.filterMap Reaper.Wake.record?) t := by
  induction ws generalizing rs s with
  | nil =>
    obtain rfl := Option.some_inj.1 h
    simpa using hs
  | cons w ws ih =>
    obtain ⟨m, hm, hrun⟩ := (Transition.run_cons_eq_some _).1 h
    have := ih (hs.step hm) hrun
    cases hw : w.record? with
    | none => simpa [hw] using this
    | some r => simpa [hw] using this

theorem gathered_new : Gathered [] Reaper.new :=
  ⟨fun p b hb => by simp [Reaper.new] at hb, fun t ht => absurd ht List.not_mem_nil⟩

/-- When each of `displays` sends one record with their number, a full bucket has them all. -/
theorem Fills.mem_handles {displays : List DisplayId}
    (hrs : ∀ r ∈ rs, r.releasePoint = point → ∀ d, r.consumerHandle = some d →
      d ∈ displays ∧ r.expectedCount = displays.length)
    (hone : ∀ d, recordsOf rs point d ≤ 1) (h : Fills rs point handles handles.length) :
    ∀ d ∈ displays, d ∈ handles := by
  have hnodup : handles.Nodup :=
    List.nodup_iff_count_le_one.2 fun d => (h.count_le d).trans (hone d)
  have hsub : handles ⊆ displays := fun d hd => by
    have hpos : 0 < recordsOf rs point d :=
      (List.count_pos_iff.2 hd).trans_le (h.count_le d)
    obtain ⟨r, hr, hrd⟩ := List.countP_pos_iff.1 hpos
    obtain ⟨hp, hc⟩ := of_decide_eq_true hrd
    exact (hrs r hr hp d hc).1
  have hlen : displays.length ≤ handles.length := by
    obtain ⟨r, hr, hp, hc, hle⟩ := h.expected
    obtain ⟨d, hd⟩ := Option.ne_none_iff_exists'.1 hc
    exact (hrs r hr hp d hd).2 ▸ hle
  have hperm := (hnodup.subperm hsub).perm_of_length_le hlen
  exact fun d hd => hperm.mem_iff.2 hd

end Reaper

/-! ## What the router has sent -/

/-- The width of a frame of renderer `r` with release point `point`. -/
def Dispatch.width (r : RendererId) (point : ℕ) : Dispatch → Option ℕ
  | .frame q _ _ _ p n => if q = r ∧ p = point then some n else none
  | _ => none

/-- The widths of the frames with release point `point` of renderer `r` that were sent to display
`d`. -/
def Daemon.widths (s : Daemon) (r : RendererId) (point : ℕ) (d : DisplayId) : List ℕ :=
  (s.channels d).filterMap (Dispatch.width r point)

/-- The point was used for a frame: one was sent to some display, or there was no display to send
it to. -/
def Daemon.usesPoint (s : Daemon) (r : RendererId) (point : ℕ) : Bool :=
  ((List.range (s.inner.nextDisplayId + 1)).any fun d => !(s.widths r point d).isEmpty) ||
    (s.slots r).frameRecords.any fun rec =>
      rec.releasePoint == point && rec.consumerHandle.isNone

/-- A sync of the display has something to do, and repeats a frame. -/
def Daemon.replays (s : Daemon) (d : DisplayId) : Bool :=
  match s.inner.displays.lookup d, s.inner.syncTarget s.slots d with
  | some state, some (link, h, g) =>
      !Inner.gated s.slots state (some (link, h, g)) &&
        Inner.needsUpdate state (some (link, h, g)) && !(Inner.replayFrame s.slots h g).isEmpty
  | _, _ => false

/-- The call sends a frame for a point that has been used. -/
def Call.repeats (s : Daemon) : Call → Bool
  | router (.syncDisplay d) => s.replays d
  | router (.onRendererFrame r _ _ point) => s.usesPoint r point
  | _ => false

/-- No frame is repeated, and no release point is used for two frames. -/
def FansOutOnce (p : DaemonPool) : DaemonLabel → Prop
  | .run i _ => ∀ c ∈ (p.tasks[i]?.bind fun t => t.stack.head?), c.repeats p.shared = false
  | _ => True

/-- The frame with the release point was sent to the displays `ds`, once to each, with their
number. -/
structure FannedOut (r : RendererId) (point : ℕ) (s : Daemon) (ds : List DisplayId) : Prop where
  nodup : ds.Nodup
  widths : ∀ d, s.widths r point d = if d ∈ ds then [ds.length] else []
  unsent : ds ≠ [] → ∀ rec ∈ (s.slots r).frameRecords, rec.releasePoint = point →
    rec.consumerHandle ≠ none

/-- The record that a call carries for the reaper of a renderer. -/
def Call.carried : Call → Option (RendererId × FrameRecord)
  | endpoint (.deliver d (.frame r _ _ _ point n)) => some (r, ⟨point, some d, n⟩)
  | endpoint (.write _ (.frameReady r _ _ _) (some record)) => some (r, record)
  | _ => none

section Exec

variable {x : Choice} {fresh : ℕ} {s : Daemon} {c k : Call} {o : Step} {r : RendererId}
  {point : ℕ} {d : DisplayId} {ds : List DisplayId}

theorem widths_retire (state : DisplayState) :
    (Inner.retire state).filterMap (Dispatch.width r point) = [] := by
  rw [Inner.retire]
  cases state.lastBufferGeneration <;> rfl

theorem widths_syncDisplay (h : s.replays d = false) :
    (s.inner.syncDisplay s.settings s.slots d).2.filterMap (Dispatch.width r point) = [] := by
  rcases s.inner.syncDisplay_cases s.settings s.slots d with ⟨hidle, -⟩ |
    ⟨state, hd, hgate, hneeds, ⟨-, hsent, -⟩ | ⟨link, k, g, htarget, hsent, -⟩⟩
  · rw [hidle]
    rfl
  · rw [hsent, widths_retire]
  · rw [htarget] at hgate hneeds
    have hnil : Inner.replayFrame s.slots k g = [] := by
      simpa [Daemon.replays, hd, htarget, hgate, hneeds] using h
    rw [hsent, hnil, List.filterMap_append, widths_retire]
    rfl

/-- Only a frame event sends frames when none is repeated. -/
theorem widths_dispatched (hc : c.repeats s = false)
    (hne : ∀ index seq, c ≠ .router (.onRendererFrame r index seq point)) (d : DisplayId) :
    (c.dispatched s d).filterMap (Dispatch.width r point) = [] := by
  refine List.filterMap_eq_nil_iff.2 fun e he => ?_
  rcases Call.mem_dispatched he with ⟨rfl, h⟩ | ⟨-, st, l, k, g, -, -, rfl⟩ | ⟨cfg, -, -, rfl⟩ |
    ⟨q, g, index, seq, point', rfl, -, -, -, rfl⟩
  · exact List.filterMap_eq_nil_iff.1 (widths_syncDisplay hc) e h
  · rfl
  · rfl
  · rw [Dispatch.width, if_neg]
    rintro ⟨rfl, rfl⟩
    exact hne index seq rfl

theorem widths_exec (ho : c.exec x fresh s = some o) (d : DisplayId) :
    o.shared.widths r point d =
      s.widths r point d ++ (c.dispatched s d).filterMap (Dispatch.width r point) := by
  rw [Daemon.widths, Call.channels_exec ho, List.filterMap_append, Daemon.widths]

/-- A point that has not been used was sent to nobody. -/
theorem FannedOut.eq_nil (hs : FannedOut r point s ds) (hfresh : ChannelsFresh s)
    (h : s.usesPoint r point = false) : ds = [] := by
  by_contra hne
  obtain ⟨d, hd⟩ := List.exists_mem_of_ne_nil _ hne
  have hw : s.widths r point d ≠ [] := by
    rw [hs.widths, if_pos hd]
    simp
  simp only [Daemon.usesPoint, Bool.or_eq_false_iff, List.any_eq_false, List.mem_range,
    Bool.not_eq_true', Bool.not_eq_false, List.isEmpty_iff] at h
  by_cases hle : d ≤ s.inner.nextDisplayId
  · exact hw (h.1 d (Nat.lt_succ_of_le hle))
  · refine hw ?_
    rw [Daemon.widths, hfresh.empty d (not_le.1 hle)]
    rfl

/-- A record is submitted for a frame without recipients, or by the display that got the frame. -/
theorem submitted_eq_some {rec : FrameRecord} (hrec : c.submitted x s r = some rec) :
    (∃ index seq point h g, c = .router (.onRendererFrame r index seq point) ∧
      s.inner.table.getRenderer r = some h ∧ (s.slots h.id).generation = some g ∧
      s.inner.frameRecipients r g = [] ∧ rec = ⟨point, none, 0⟩) ∨
    ∃ d g index seq, c = .endpoint (.write d (.frameReady r g index seq) (some rec)) := by
  unfold Call.submitted at hrec
  split at hrec
  · rename_i q index seq point
    cases hq : s.inner.table.getRenderer q with
    | none => simp [hq] at hrec
    | some h =>
      cases hg : (s.slots h.id).generation with
      | none => simp [hq, hg] at hrec
      | some g =>
        simp only [hq, hg, Option.ite_none_right_eq_some, Option.some_inj] at hrec
        obtain ⟨⟨hnil, hid⟩, rfl⟩ := hrec
        obtain rfl := (RoutingTable.id_of_getRenderer hq).symm.trans hid
        exact .inl ⟨index, seq, point, h, g, rfl, hq, hg, hnil, rfl⟩
  · rename_i d q g index seq record
    split at hrec
    · cases hrec
    · simp only [Option.ite_none_right_eq_some, Option.some_inj] at hrec
      obtain ⟨rfl, rfl⟩ := hrec
      exact .inr ⟨d, g, index, seq, rfl⟩
  · cases hrec

/-- A frame is fanned out once: to its displays when it comes, and to no other later. -/
theorem FannedOut.exec (hs : FannedOut r point s ds) (hfresh : ChannelsFresh s)
    (hc : c.repeats s = false) (hcar : ∀ q ∈ c.carried, q.2.consumerHandle ≠ none)
    (ho : c.exec x fresh s = some o) : ∃ ds', FannedOut r point o.shared ds' := by
  have hrecords (rec : FrameRecord) (hrec : rec ∈ (o.shared.slots r).frameRecords) :
      rec ∈ (s.slots r).frameRecords ∨ c.submitted x s r = some rec := by
    have hmem := (Call.frameRecords_exec ho r).subset hrec
    simpa using hmem
  by_cases hframe : ∃ index seq, c = .router (.onRendererFrame r index seq point)
  · obtain ⟨index, seq, rfl⟩ := hframe
    obtain rfl := hs.eq_nil hfresh hc
    have hw (d : DisplayId) : s.widths r point d = [] := by
      rw [hs.widths, if_neg List.not_mem_nil]
    cases hr : s.inner.table.getRenderer r with
    | none =>
      refine ⟨[], .nil, fun d => ?_, fun h => absurd rfl h⟩
      rw [widths_exec ho, hw]
      simp [Call.dispatched, hr]
    | some k =>
      have hid := RoutingTable.id_of_getRenderer hr
      cases hg : (s.slots k.id).generation with
      | none =>
        refine ⟨[], .nil, fun d => ?_, fun h => absurd rfl h⟩
        rw [widths_exec ho, hw]
        simp [Call.dispatched, hr, hg]
      | some g =>
        refine ⟨s.inner.frameRecipients r g, nodup_frameRecipients .., fun d => ?_,
          fun hne rec hrec hpoint hnone => ?_⟩
        · rw [widths_exec ho, hw, List.nil_append]
          simp only [Call.dispatched, hr, hg]
          rw [(nodup_frameRecipients ..).count]
          split
          · simp [Dispatch.width, hid]
          · rfl
        · rcases hrecords rec hrec with hrec | hrec
          · have hused : s.usesPoint r point = false := hc
            simp only [Daemon.usesPoint, Bool.or_eq_false_iff, List.any_eq_false] at hused
            exact hused.2 rec hrec (by simp [hpoint, hnone])
          · simp [Call.submitted, hr, hg, hne] at hrec
  · have hne : ∀ index seq, c ≠ .router (.onRendererFrame r index seq point) :=
      fun index seq h => hframe ⟨index, seq, h⟩
    refine ⟨ds, hs.nodup, fun d => ?_, fun hds rec hrec hpoint hnone => ?_⟩
    · rw [widths_exec ho, widths_dispatched hc hne, List.append_nil, hs.widths]
    · rcases hrecords rec hrec with hrec | hrec
      · exact hs.unsent hds rec hrec hpoint hnone
      · rcases submitted_eq_some hrec with ⟨index, seq, p, _, _, rfl, -, -, -, rfl⟩ |
          ⟨_, _, _, _, rfl⟩
        · obtain rfl : p = point := hpoint
          exact hne index seq rfl
        · exact hcar _ rfl hnone

/-! ## The records come from the frames -/

/-- The records that the frames put on the channel of display `d` lead to. -/
def Dispatch.record (d : DisplayId) : Dispatch → Option (RendererId × FrameRecord)
  | .frame r _ _ _ point n => some (r, ⟨point, some d, n⟩)
  | _ => none

/-- The records of the frames that the endpoint of the display has taken off its channel. -/
def Daemon.takenRecords (s : Daemon) (d : DisplayId) : List (RendererId × FrameRecord) :=
  ((s.channels d).take (s.taken d)).filterMap (Dispatch.record d)

theorem Call.Continues.carried (h : c.Continues fresh s k) (hk : k.carried ≠ none) :
    (∃ d e, c = .endpoint (.frameLoop d) ∧ (s.channels d)[s.taken d]? = some e ∧
      k = .endpoint (.deliver d e.event)) ∨ ∃ d e, c = .endpoint (.deliver d e) := by
  cases h with
  | frameDeliver he => exact .inl ⟨_, _, rfl, he, rfl⟩
  | deliverWrite => exact .inr ⟨_, _, rfl⟩
  | _ => exact absurd rfl hk

theorem carried_spawn (h : c.exec x fresh s = some o) : pending Call.carried o.spawn = [] := by
  refine List.filterMap_eq_nil_iff.2 fun k hk => ?_
  obtain hs | ⟨t, hs, ht⟩ := Call.spawns h
  · simp [hs] at hk
  · rw [hs, calls_cons, calls_nil, List.append_nil] at hk
    cases ht <;> obtain rfl := List.mem_singleton.1 hk <;> rfl

theorem carried_deliver (d : DisplayId) (e : Dispatch) :
    (Call.endpoint (.deliver d e.event)).carried = e.record d := by
  cases e <;> rfl

/-- The record on its way from a display has its handle. -/
theorem consumerHandle_of_next (ho : c.exec x fresh s = some o) (hk : k ∈ o.next)
    {q : RendererId × FrameRecord} (hq : k.carried = some q) : q.2.consumerHandle ≠ none := by
  rcases (Call.continues ho hk).carried (by simp [hq]) with ⟨d, e, -, -, rfl⟩ | ⟨d, e, rfl⟩
  · rw [carried_deliver] at hq
    cases e with
    | frame => exact Option.some_inj.1 hq ▸ by simp
    | _ => cases hq
  · cases e <;> simp only [Call.exec, EndpointCall.exec, EndpointCall.hangUp, Daemon.andThen] at ho <;>
      (repeat' split at ho) <;> cases ho <;> obtain rfl := List.mem_singleton.1 hk <;>
      simp only [Call.carried, Option.some_inj, reduceCtorEq] at hq
    all_goals exact hq ▸ by simp

theorem takenRecords_le (ho : c.exec x fresh s = some o)
    (htaken : s.taken d ≤ o.shared.taken d) (q : RendererId × FrameRecord) :
    (s.takenRecords d).count q ≤ (o.shared.takenRecords d).count q := by
  refine List.Sublist.count_le q (List.Sublist.filterMap _ ?_)
  rw [Call.channels_exec ho]
  exact (List.take_sublist_take_left htaken).trans
    ((List.prefix_append _ _).take _).sublist

/-- What the endpoint's loop goes on with carries a record only if it has taken a frame off the
channel. -/
theorem frameLoop_carried {e : DisplayId}
    (ho : (Call.endpoint (.frameLoop e)).exec x fresh s = some o) :
    o.next.filterMap Call.carried = [] ∨ ∃ ev, (s.channels e)[s.taken e]? = some ev ∧
      o.next = [.endpoint (.deliver e ev.event)] ∧
      o.shared = { s with taken := Function.update s.taken e (s.taken e + 1) } := by
  by_cases hnil : o.next.filterMap Call.carried = []
  · exact .inl hnil
  refine .inr ?_
  obtain ⟨k, hk, hcar⟩ : ∃ k ∈ o.next, k.carried ≠ none := by
    by_contra hall
    simp only [not_exists, not_and, not_not] at hall
    exact hnil (List.filterMap_eq_nil_iff.2 hall)
  rcases (Call.continues ho hk).carried hcar with ⟨d, ev, hd, he, rfl⟩ | ⟨d, ev, hd⟩
  · cases hd
    refine ⟨ev, he, ?_⟩
    simp only [Call.exec, EndpointCall.exec, he] at ho
    cases x with
    | client q =>
      exfalso
      simp only [EndpointCall.hangUp, Daemon.andThen] at ho
      split at ho <;> cases ho
      · rename_i next hq
        rcases List.mem_append.1 hk with hk | hk
        · obtain ⟨c, hc⟩ := request_router hq hk
          cases hc
        · simp at hk
      · simp at hk
    | closed =>
      cases ho
      simp at hk
    | _ =>
      cases ho
      exact ⟨rfl, rfl⟩
  · cases hd

theorem count_frameRecords_le (ho : c.exec x fresh s = some o) (r : RendererId)
    (rec : FrameRecord) : (o.shared.slots r).frameRecords.count rec ≤
      (s.slots r).frameRecords.count rec + (c.submitted x s r).toList.count rec := by
  rw [← List.count_append]
  exact (Call.frameRecords_exec ho r).count_le rec

/-- A record on its way from a display is handed on from call to call. -/
theorem records_exec (ho : c.exec x fresh s = some o)
    (hcar : ∀ q ∈ c.carried, q.2.consumerHandle ≠ none) {rec : FrameRecord}
    (hd : rec.consumerHandle = some d) :
    (o.shared.slots r).frameRecords.count rec + (o.next.filterMap Call.carried).count (r, rec) +
        (s.takenRecords d).count (r, rec) ≤
      (s.slots r).frameRecords.count rec + c.carried.toList.count (r, rec) +
        (o.shared.takenRecords d).count (r, rec) := by
  have hslots := count_frameRecords_le ho r rec
  have htaken := takenRecords_le ho (taken_le ho d) (r, rec)
  by_cases hquiet : o.next.filterMap Call.carried = []
  · rw [hquiet, List.count_nil]
    have hsub : (c.submitted x s r).toList.count rec ≤ c.carried.toList.count (r, rec) := by
      by_cases hrec : c.submitted x s r = some rec
      · rcases submitted_eq_some hrec with ⟨_, _, _, _, _, -, -, -, -, rfl⟩ | ⟨_, _, _, _, rfl⟩
        · cases hd
        · simp [hrec, Call.carried]
      · rw [List.count_eq_zero.2 (by simpa using hrec)]
        exact Nat.zero_le _
    omega
  · obtain ⟨k, hk, hkcar⟩ : ∃ k ∈ o.next, k.carried ≠ none := by
      by_contra hall
      simp only [not_exists, not_and, not_not] at hall
      exact hquiet (List.filterMap_eq_nil_iff.2 hall)
    rcases (Call.continues ho hk).carried hkcar with ⟨e, -, rfl, -⟩ | ⟨e, ev, rfl⟩
    · -- the endpoint has taken a frame off the channel
      obtain hnil | ⟨ev, he, hnext, hshared⟩ := frameLoop_carried ho
      · exact absurd hnil hquiet
      have hnext' : o.next.filterMap Call.carried = (ev.record e).toList := by
        rw [hnext, List.filterMap_cons, carried_deliver]
        cases ev.record e <;> rfl
      have hnone : (Call.endpoint (.frameLoop e)).carried.toList.count (r, rec) = 0 := rfl
      have hsame : (o.shared.slots r).frameRecords = (s.slots r).frameRecords := by rw [hshared]
      rw [hsame, hnext', hnone]
      by_cases hde : d = e
      · subst hde
        have hgrow : o.shared.takenRecords d = s.takenRecords d ++ (ev.record d).toList := by
          rw [hshared, Daemon.takenRecords, Daemon.takenRecords]
          dsimp only
          rw [Function.update_self, List.take_add_one, he, List.filterMap_append]
          cases hev : ev.record d <;> simp [hev]
        rw [hgrow, List.count_append]
        omega
      · have hother : (ev.record e).toList.count (r, rec) = 0 := by
          refine List.count_eq_zero.2 fun hmem => ?_
          rw [Option.mem_toList] at hmem
          cases ev with
          | frame q g i n p m =>
            simp only [Dispatch.record, Option.some_inj, Prod.mk.injEq] at hmem
            rw [← hmem.2] at hd
            exact hde (Option.some_inj.1 hd).symm
          | _ => cases hmem
        omega
    · -- the frame is written, with its record
      have hlog : o.shared.takenRecords d = s.takenRecords d := by
        rw [Daemon.takenRecords, Call.taken_exec ho, Call.channels_exec ho]
        simp [Call.dispatched, Call.takenAfter, Daemon.takenRecords]
      have hnext : o.next.filterMap Call.carried = ((Call.endpoint (.deliver e ev)).carried).toList := by
        cases ev <;> simp only [Call.exec, EndpointCall.exec, EndpointCall.hangUp,
          Daemon.andThen] at ho <;> (repeat' split at ho) <;> cases ho <;>
          first | rfl | exact absurd rfl hquiet
      have hsub : (Call.endpoint (.deliver e ev)).submitted x s r = none := rfl
      rw [hsub, Option.toList_none, List.count_nil, Nat.add_zero] at hslots
      rw [hlog, hnext]
      omega

end Exec

/-- The records submitted and on their way are those of the frames that were taken off the
channels. -/
structure Tallied (p : DaemonPool) : Prop where
  fresh : ChannelsFresh p.shared
  carried : ∀ q ∈ pending Call.carried p.tasks, q.2.consumerHandle ≠ none
  records : ∀ r d rec, rec.consumerHandle = some d →
    (p.shared.slots r).frameRecords.count rec + (pending Call.carried p.tasks).count (r, rec) ≤
      (p.shared.takenRecords d).count (r, rec)

section Run

variable {p p' : DaemonPool} {l : DaemonLabel} {r : RendererId} {point : ℕ} {ds : List DisplayId}

theorem Tallied.congr (hp : Tallied p) (hfresh : ChannelsFresh p'.shared)
    (hpending : (pending Call.carried p'.tasks).Sublist (pending Call.carried p.tasks))
    (hslots : p'.shared.slots = p.shared.slots) (hchannels : p'.shared.channels = p.shared.channels)
    (htaken : p'.shared.taken = p.shared.taken) : Tallied p' where
  fresh := hfresh
  carried q hq := hp.carried q (hpending.subset hq)
  records r d rec hd := by
    have hle := hpending.count_le (r, rec)
    have hold := hp.records r d rec hd
    rw [Daemon.takenRecords, hslots, hchannels, htaken]
    rw [Daemon.takenRecords] at hold
    omega

theorem FannedOut.congr {s s' : Daemon} (hs : FannedOut r point s ds)
    (hslots : s'.slots = s.slots) (hchannels : s'.channels = s.channels) :
    FannedOut r point s' ds where
  nodup := hs.nodup
  widths d := by rw [Daemon.widths, hchannels, ← Daemon.widths, hs.widths]
  unsent := hslots ▸ hs.unsent

theorem Call.carried_of_isRequested {c : Call} (h : c.isRequested = true) : c.carried = none := by
  cases c with
  | endpoint c => cases h
  | _ => rfl

/-- What is kept of a daemon that fans its frames out once. -/
structure FansOut (p : DaemonPool) : Prop extends Tallied p where
  fannedOut : ∀ r point, ∃ ds, FannedOut r point p.shared ds

theorem FansOut.step (hp : FansOut p) (hC : FansOutOnce p l)
    (h : semantics.step p l = some p') : FansOut p' := by
  refine Semantics.preserves (C := FansOutOnce) ?_ ?_ ?_ ?_ ?_ p l p' hp hC h
  · intro p i x t c rest o hp hC ht _ hc ho
    have hrep : c.repeats p.shared = false := hC c (by simp [ht, hc])
    obtain ⟨others, hbefore, hafter⟩ := pending_resume_perm ht hc o Call.carried
    rw [carried_spawn ho, List.append_nil] at hafter
    have hcar : ∀ q ∈ c.carried, q.2.consumerHandle ≠ none := fun q hq =>
      hp.carried q (hbefore.mem_iff.2 (List.mem_append_left _ (Option.mem_toList.2 hq)))
    refine ⟨⟨hp.fresh.exec ho, fun q hq hnone => ?_, fun r d rec hd => ?_⟩, fun r point => ?_⟩
    · rcases List.mem_append.1 (hafter.mem_iff.1 hq) with hq | hq
      · obtain ⟨k, hk, hkq⟩ := List.mem_filterMap.1 hq
        exact consumerHandle_of_next ho hk hkq hnone
      · exact hp.carried q (hbefore.mem_iff.2 (List.mem_append_right _ hq)) hnone
    · have hexec := records_exec (r := r) ho hcar hd
      have hold := hp.records r d rec hd
      rw [hbefore.count_eq, List.count_append] at hold
      change (o.shared.slots r).frameRecords.count rec + _ ≤ (o.shared.takenRecords d).count _
      rw [hafter.count_eq, List.count_append]
      omega
    · obtain ⟨ds, hds⟩ := hp.fannedOut r point
      exact hds.exec hp.fresh hrep hcar ho
  · intro p i t hp _ ht _
    exact ⟨hp.toTallied.congr hp.fresh (pending_wake ht _ ▸ .refl _) rfl rfl rfl, hp.fannedOut⟩
  · intro p i t hp _ ht _
    refine ⟨⟨hp.fresh, fun q hq => ?_, fun r d rec hd => ?_⟩, hp.fannedOut⟩
    · exact hp.carried q ((pending_drop_perm ht _).mem_iff.2 (List.mem_append_right _ hq))
    · have hold := hp.records r d rec hd
      rw [(pending_drop_perm ht _).count_eq, List.count_append] at hold
      change (p.shared.slots r).frameRecords.count rec + _ ≤ (p.shared.takenRecords d).count _
      omega
  · intro p q s t hp _ ha
    have hfresh := hp.fresh.accept ha
    have hpending : (pending Call.carried (p.tasks ++ [t])).Sublist
        (pending Call.carried p.tasks) := by
      rw [Request.pending_accept (fun _ => Call.carried_of_isRequested) ha]
    obtain rfl | ⟨id, -, rfl⟩ := Request.accept_shared ha
    · exact ⟨hp.toTallied.congr hfresh hpending rfl rfl rfl, hp.fannedOut⟩
    · refine ⟨hp.toTallied.congr hfresh hpending rfl rfl rfl, fun r point => ?_⟩
      obtain ⟨ds, hds⟩ := hp.fannedOut r point
      exact ⟨ds, hds.congr rfl rfl⟩
  · intro p e s hp _ ha
    obtain rfl := Option.some_inj.1 ha
    have hsame : (e.act p.shared).slots = p.shared.slots ∧
        (e.act p.shared).channels = p.shared.channels ∧
        (e.act p.shared).taken = p.shared.taken := by
      cases e <;> exact ⟨rfl, rfl, rfl⟩
    refine ⟨hp.toTallied.congr (hp.fresh.act e) (.refl _) hsame.1 hsame.2.1 hsame.2.2,
      fun r point => ?_⟩
    obtain ⟨ds, hds⟩ := hp.fannedOut r point
    exact ⟨ds, hds.congr hsame.1 hsame.2.1⟩

theorem fansOut_start (registry : HashMap String (List String)) : FansOut (start registry) where
  fresh := channelsFresh_initial registry
  carried q hq := by simp [start, pending, Call.carried] at hq
  records r d rec hd := by
    simp [start, pending, Call.carried, Daemon.initial, Slots.initial, List.filterMap_cons]
  fannedOut r point := ⟨[], .nil, fun d => rfl, fun h => absurd rfl h⟩

/-! ## A full bucket holds all displays -/

theorem count_width_eq (es : List Dispatch) (r : RendererId) (point n : ℕ) (d : DisplayId) :
    (es.filterMap (Dispatch.record d)).count (r, ⟨point, some d, n⟩) =
      (es.filterMap (Dispatch.width r point)).count n := by
  rw [List.count_filterMap, List.count_filterMap]
  refine List.countP_congr fun e _ => ?_
  cases e with
  | frame q g i k p' m =>
    simp only [Dispatch.record, Dispatch.width, beq_iff_eq, Option.some_inj, Prod.mk.injEq,
      FrameRecord.mk.injEq, true_and]
    split <;> simp_all
  | _ => simp [Dispatch.record, Dispatch.width]

/-- Each display has sent at most one record for the point, with the number of the displays. -/
theorem FansOut.records_le (hp : FansOut p) (hds : FannedOut r point p.shared ds) (d : DisplayId)
    (n : ℕ) : (p.shared.slots r).frameRecords.count ⟨point, some d, n⟩ ≤
      (if d ∈ ds then [ds.length] else []).count n := by
  have htaken : (p.shared.takenRecords d).count (r, ⟨point, some d, n⟩) ≤
      (p.shared.widths r point d).count n := by
    rw [Daemon.widths, ← count_width_eq]
    exact ((List.take_sublist _ _).filterMap _).count_le _
  rw [hds.widths] at htaken
  have hrecords := hp.records r d ⟨point, some d, n⟩ rfl
  omega

end Run

instance FansOutOnce.decidable (p : DaemonPool) : (l : DaemonLabel) → Decidable (FansOutOnce p l)
  | .run i _ => inferInstanceAs (Decidable
      (∀ c ∈ (p.tasks[i]?.bind fun t => t.stack.head?), c.repeats p.shared = false))
  | .wake _ | .drop _ | .start _ | .env _ => .isTrue trivial

def imageRegistry : HashMap String (List String) :=
  (∅ : HashMap String (List String)).insert "image" ["plugin"]

/-- An image renderer with a reaper sends a frame to the one display there is. -/
def imageShown : List DaemonLabel :=
  [.start (.rendererSpawn ⟨"image", ∅, none⟩), .run 1 (.spawned 7 none ⟨0, 0⟩ true)] ++
  List.replicate 9 (.run 1 .tick) ++ .run 2 (.received (.bindBuffers (scenePool 1))) ::
  List.replicate 3 (.run 2 .tick) ++ List.replicate 5 (.run 3 .tick) ++
  .start (.connect ⟨"A", none, 1920, 1080, 60, ⟨0, 0⟩, none⟩) :: List.replicate 19 (.run 4 .tick) ++
  [.run 2 (.received (.frameReady 0 1 1)), .run 2 .tick, .run 2 .tick, .run 3 .tick, .run 3 .tick]

/-- The display has taken the frame and its record. -/
def imageTaken : List DaemonLabel :=
  imageShown ++ List.replicate 3 (.run 4 .tick)

def takenOnce : DaemonPool :=
  Transition.reached semantics.step (start imageRegistry) imageTaken (by decide +kernel)

/-- A second display connects, is sent the frame once more, and is the first to take it. -/
def imageReplayed : List DaemonLabel :=
  imageShown ++ .start (.connect ⟨"B", none, 1920, 1080, 60, ⟨0, 0⟩, none⟩) ::
    List.replicate 18 (.run 5 .tick)

def takenTwice : DaemonPool :=
  Transition.reached semantics.step (start imageRegistry) imageReplayed (by decide +kernel)

end Waywallen
