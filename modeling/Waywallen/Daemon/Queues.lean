import Waywallen.Daemon.Frames

/-!
# The queues and slots after a call

Which calls write to the sockets of the renderers, the channels and connections of the displays,
the broadcasts of the reader threads and the slots they share with the router.
-/

namespace Waywallen

namespace Call

variable (x : Choice) (s : Daemon)

def socketsAfter : Call → RendererId → List (ControlMsg × ℕ)
  | manager (.writeControl r msg pass) =>
      match x with
      | .fail | .peerGone => s.sockets
      | _ => Function.update s.sockets r (s.sockets r ++ [(msg, pass)])
  | manager (.writeNegotiate r scheme) =>
      match x with
      | .fail | .peerGone => s.sockets
      | _ => Function.update s.sockets r (s.sockets r ++ [(.negotiateBuffers scheme, 0)])
  | _ => s.sockets

/-- What a call puts on the channels of the displays. -/
def dispatched (d : DisplayId) : Call → List Dispatch
  | router (.syncDisplay e) =>
      if d = e then (s.inner.syncDisplay s.settings s.slots e).2 else []
  | router (.resyncDisplaySetConfig e) =>
      if d = e then (s.inner.resyncDisplaySetConfig s.settings s.slots e).2 else []
  | router (.sendLinkConfig e p) =>
      if d = e ∧ s.inner.displays.containsKey e = true then [.setConfig p] else []
  | router (.onRendererFrame r index seq point) =>
      match s.inner.table.getRenderer r with
      | none => []
      | some h =>
          match (s.slots h.id).generation with
          | none => []
          | some g =>
              let recipients := s.inner.frameRecipients r g
              List.replicate (recipients.count d) (.frame h.id g index seq point recipients.length)
  | _ => []

def takenAfter : Call → DisplayId → ℕ
  | endpoint (.frameLoop d) =>
      match x with
      | .client _ | .closed => s.taken
      | _ =>
          if s.taken d < (s.channels d).length then Function.update s.taken d (s.taken d + 1)
          else s.taken
  | _ => s.taken

def wiresAfter : Call → DisplayId → List WireEvent
  | endpoint (.write d w _) =>
      match x with
      | .fail => s.wires
      | _ => Function.update s.wires d (s.wires d ++ [w])
  | _ => s.wires

def broadcastsAfter : Call → RendererId → List EventMsg
  | reader (.broadcast r msg) => Function.update s.broadcasts r (s.broadcasts r ++ [msg])
  | _ => s.broadcasts

/-- The pools cached for the renderers. -/
def snapshotAfter (r : RendererId) : Call → Option BindSnapshot
  | reader (.readerLoop q) =>
      match x with
      | .received (.bindBuffers snap) =>
          if r = q ∧ snap.accepted = true then some snap else (s.slots r).bindSnapshot
      | _ => (s.slots r).bindSnapshot
  | apply (.spawn req _) =>
      match s.resolve req, x with
      | some _, .spawned id _ _ _ => if r = id then none else (s.slots r).bindSnapshot
      | _, _ => (s.slots r).bindSnapshot
  | _ => (s.slots r).bindSnapshot

/-- The frames whose acquire fences are kept. -/
def syncFdsAfter (r : RendererId) : Call → List ℕ
  | reader (.readerLoop q) =>
      match x with
      | .received (.frameReady _ seq _) =>
          if r = q then ((s.slots r).pushSyncFd seq).syncFds else (s.slots r).syncFds
      | _ => (s.slots r).syncFds
  | reader (.clearSyncFds q) => if r = q then [] else (s.slots r).syncFds
  | apply (.spawn req _) =>
      match s.resolve req, x with
      | some _, .spawned id _ _ _ => if r = id then [] else (s.slots r).syncFds
      | _, _ => (s.slots r).syncFds
  | _ => (s.slots r).syncFds

def latestFrameAfter (r : RendererId) : Call → Option FrameSnapshot
  | reader (.clearLatestFrame q) => if r = q then none else (s.slots r).latestFrame
  | reader (.stashLatestFrame q index seq point) =>
      if r = q then
        match (s.slots r).generation with
        | some g => some ⟨g, index, seq, point⟩
        | none => (s.slots r).latestFrame
      else (s.slots r).latestFrame
  | apply (.spawn req _) =>
      match s.resolve req, x with
      | some _, .spawned id _ _ _ => if r = id then none else (s.slots r).latestFrame
      | _, _ => (s.slots r).latestFrame
  | _ => (s.slots r).latestFrame

/-- The record that a call hands to the reaper of renderer `r`. -/
def submitted (r : RendererId) : Call → Option FrameRecord
  | router (.onRendererFrame q _ _ point) =>
      match s.inner.table.getRenderer q with
      | none => none
      | some h =>
          match (s.slots h.id).generation with
          | none => none
          | some g =>
              if s.inner.frameRecipients q g = [] ∧ h.id = r then some ⟨point, none, 0⟩ else none
  | endpoint (.write _ (.frameReady q _ _ _) (some record)) =>
      match x with
      | .fail => none
      | _ => if q = r then some record else none
  | _ => none

/-- The slots of renderer `r` after a call. -/
def slotsAfter (r : RendererId) (c : Call) : Slots :=
  match c with
  | router (.onRendererBindFailed q fourcc modifier) =>
      if r = q ∧ (s.inner.table.getRenderer q).isSome = true then
        ((s.slots r).blacklistFormat fourcc modifier).1
      else s.slots r
  | router (.onRendererFrame _ _ _ _) | endpoint (.write _ _ _) =>
      (c.submitted x s r).elim (s.slots r) (s.slots r).submitFrameRecord
  | manager (.storeDispatchedScheme q scheme) =>
      if r = q then { s.slots r with lastDispatchedScheme := some scheme } else s.slots r
  | reader (.readerLoop q) =>
      match x with
      | .received msg => if r = q then (ReaderCall.receive q msg).1 (s.slots r) else s.slots r
      | _ => s.slots r
  | reader (.clearSyncFds q) => if r = q then { s.slots r with syncFds := [] } else s.slots r
  | reader (.clearLatestFrame q) =>
      if r = q then { s.slots r with latestFrame := none } else s.slots r
  | reader (.stashLatestFrame q index seq point) =>
      if r = q then
        { s.slots r with
          latestFrame := match (s.slots r).generation with
            | some g => some ⟨g, index, seq, point⟩
            | none => (s.slots r).latestFrame }
      else s.slots r
  | apply (.spawn req _) =>
      match s.resolve req, x with
      | some _, .spawned id _ _ reaper =>
          if r = id then { Slots.initial with reaper } else s.slots r
      | _, _ => s.slots r
  | _ => s.slots r

variable {x} {fresh : ℕ} {s} {c : Call} {o : Step}

theorem sockets_exec (h : c.exec x fresh s = some o) : o.shared.sockets = c.socketsAfter x s := by
  cases c with
  | router c => exact (RouterCall.untouched h).sockets
  | manager c =>
    cases c <;> cases x <;>
      simp only [exec, ManagerCall.exec, Daemon.done, Daemon.andThen] at h <;>
      (repeat' split at h) <;> cases h <;> rfl
  | reader c => exact (congrArg Daemon.sockets (ReaderCall.shared_eq h)).trans rfl
  | endpoint c => exact (congrArg Daemon.sockets (EndpointCall.shared_eq h)).trans rfl
  | apply c => exact (congrArg Daemon.sockets (ApplyCall.shared_eq h)).trans rfl

theorem taken_exec (h : c.exec x fresh s = some o) : o.shared.taken = c.takenAfter x s := by
  cases c with
  | router c => exact (RouterCall.untouched h).taken
  | manager c => exact (congrArg Daemon.taken (ManagerCall.shared_eq h)).trans rfl
  | reader c => exact (congrArg Daemon.taken (ReaderCall.shared_eq h)).trans rfl
  | endpoint c =>
    cases c with
    | frameLoop d =>
      cases hd : (s.channels d)[s.taken d]? with
      | none =>
        have hlt : ¬s.taken d < (s.channels d).length := by simpa using hd
        cases x <;>
          simp only [exec, EndpointCall.exec, EndpointCall.hangUp, Daemon.andThen, hd] at h <;>
          (repeat' split at h) <;> cases h <;>
          simp [takenAfter, hlt, Daemon.answer, Daemon.record]
      | some e =>
        obtain ⟨hlt, -⟩ := List.getElem?_eq_some_iff.1 hd
        cases x <;>
          simp only [exec, EndpointCall.exec, EndpointCall.hangUp, Daemon.andThen, hd] at h <;>
          (repeat' split at h) <;> cases h <;>
          simp [takenAfter, hlt, Daemon.answer, Daemon.record]
    | _ =>
      simp only [exec, EndpointCall.exec, EndpointCall.hangUp, Daemon.done, Daemon.andThen] at h
      (repeat' split at h) <;> cases h <;> first | rfl | rw [EndpointCall.submit_eq]; rfl
  | apply c => exact (congrArg Daemon.taken (ApplyCall.shared_eq h)).trans rfl

theorem wires_exec (h : c.exec x fresh s = some o) : o.shared.wires = c.wiresAfter x s := by
  cases c with
  | router c => exact (RouterCall.untouched h).wires
  | manager c => exact (congrArg Daemon.wires (ManagerCall.shared_eq h)).trans rfl
  | reader c => exact (congrArg Daemon.wires (ReaderCall.shared_eq h)).trans rfl
  | endpoint c =>
    cases c with
    | write d w record =>
      cases x <;> simp only [exec, EndpointCall.exec, EndpointCall.hangUp, Daemon.andThen] at h <;>
        cases h <;> first | rfl | rw [EndpointCall.submit_eq]; rfl
    | _ =>
      simp only [exec, EndpointCall.exec, EndpointCall.hangUp, Daemon.done, Daemon.andThen] at h
      (repeat' split at h) <;> cases h <;> rfl
  | apply c => exact (congrArg Daemon.wires (ApplyCall.shared_eq h)).trans rfl

theorem broadcasts_exec (h : c.exec x fresh s = some o) :
    o.shared.broadcasts = c.broadcastsAfter s := by
  cases c with
  | router c => exact (RouterCall.untouched h).broadcasts
  | manager c => exact (congrArg Daemon.broadcasts (ManagerCall.shared_eq h)).trans rfl
  | reader c =>
    cases c <;> simp only [exec, ReaderCall.exec, Daemon.done, Daemon.andThen] at h <;>
      (repeat' split at h) <;> cases h <;> rfl
  | endpoint c => exact (congrArg Daemon.broadcasts (EndpointCall.shared_eq h)).trans rfl
  | apply c => exact (congrArg Daemon.broadcasts (ApplyCall.shared_eq h)).trans rfl

theorem channels_dispatchAll (ds : List DisplayId) (e : Dispatch) (s : Daemon) (d : DisplayId) :
    (s.dispatchAll ds e).channels d = s.channels d ++ List.replicate (ds.count d) e := by
  unfold Daemon.dispatchAll
  induction ds generalizing s with
  | nil => simp
  | cons b ds ih =>
    rw [List.foldl_cons, ih, List.count_cons]
    by_cases hbd : b = d
    · subst hbd
      simp [Daemon.dispatch, List.replicate_succ]
    · have hdb : d ≠ b := fun h => hbd h.symm
      simp [Daemon.dispatch, hbd, hdb]

theorem channels_exec (h : c.exec x fresh s = some o) (d : DisplayId) :
    o.shared.channels d = s.channels d ++ c.dispatched s d := by
  cases c with
  | router c =>
    cases c with
    | onRendererFrame r index seq point =>
      simp only [exec, RouterCall.exec, Daemon.done] at h
      simp only [dispatched]
      cases hr : s.inner.table.getRenderer r with
      | none =>
        simp only [hr] at h
        cases h
        simp
      | some k =>
        cases hg : (s.slots k.id).generation with
        | none =>
          simp only [hr, hg] at h
          cases h
          simp [hg]
        | some g =>
          simp only [hr, hg] at h ⊢
          split at h
          · rename_i hnil
            cases h
            simp [hnil, Daemon.modifySlots]
          · cases h
            exact channels_dispatchAll ..
    | syncDisplay e =>
      cases h
      by_cases hd : d = e
      · subst hd
        simp [Daemon.dispatch, dispatched, Daemon.withInner]
      · simp [Daemon.dispatch, dispatched, Daemon.withInner, hd]
    | resyncDisplaySetConfig e =>
      cases h
      by_cases hd : d = e
      · subst hd
        simp [Daemon.dispatch, dispatched, Daemon.withInner]
      · simp [Daemon.dispatch, dispatched, Daemon.withInner, hd]
    | sendLinkConfig e q =>
      simp only [exec, RouterCall.exec, Daemon.done] at h
      split at h
      · rename_i hk
        cases h
        by_cases hd : d = e
        · subst hd
          simp [Daemon.dispatch, dispatched, hk]
        · simp [Daemon.dispatch, dispatched, hd]
      · rename_i hk
        cases h
        simp [dispatched, hk]
    | _ =>
      simp only [exec, RouterCall.exec, Daemon.done, Daemon.andThen] at h
      (repeat' split at h) <;> cases h <;> exact (List.append_nil _).symm
  | manager c =>
    exact (congrFun (congrArg Daemon.channels (ManagerCall.shared_eq h)) d).trans
      (List.append_nil _).symm
  | reader c =>
    exact (congrFun (congrArg Daemon.channels (ReaderCall.shared_eq h)) d).trans
      (List.append_nil _).symm
  | endpoint c =>
    exact (congrFun (congrArg Daemon.channels (EndpointCall.shared_eq h)) d).trans
      (List.append_nil _).symm
  | apply c =>
    exact (congrFun (congrArg Daemon.channels (ApplyCall.shared_eq h)) d).trans
      (List.append_nil _).symm

theorem slots_modifySlots (q r : RendererId) (f : Slots → Slots) :
    (s.modifySlots q f).slots r = if r = q then f (s.slots r) else s.slots r := by
  by_cases h : r = q
  · subst h
    simp [Daemon.modifySlots]
  · simp [Daemon.modifySlots, h]

theorem slots_exec (h : c.exec x fresh s = some o) (r : RendererId) :
    o.shared.slots r = c.slotsAfter x s r := by
  cases c with
  | router c =>
    cases c with
    | onRendererBindFailed q fourcc modifier =>
      simp only [exec, RouterCall.exec, Daemon.done, Daemon.andThen] at h
      cases hq : s.inner.table.getRenderer q with
      | none =>
        rw [hq] at h
        cases h
        simp [slotsAfter, hq]
      | some k =>
        rw [hq] at h
        cases h
        simp [slotsAfter, slots_modifySlots, hq, RoutingTable.id_of_getRenderer hq]
    | onRendererFrame q index seq point =>
      simp only [exec, RouterCall.exec, Daemon.done] at h
      cases hq : s.inner.table.getRenderer q with
      | none =>
        simp only [hq] at h
        cases h
        simp [slotsAfter, submitted, hq]
      | some k =>
        cases hg : (s.slots k.id).generation with
        | none =>
          simp only [hq, hg] at h
          cases h
          simp [slotsAfter, submitted, hq, hg]
        | some g =>
          simp only [hq, hg] at h
          split at h
          · rename_i hnil
            cases h
            by_cases hr : r = k.id
            · subst hr
              simp [slotsAfter, submitted, slots_modifySlots, hq, hg, hnil]
            · simp [slotsAfter, submitted, slots_modifySlots, hq, hg, hnil, hr, Ne.symm hr]
          · rename_i hne
            cases h
            rw [Daemon.dispatchAll_eq]
            simp [slotsAfter, submitted, hq, hg, hne]
    | _ =>
      simp only [exec, RouterCall.exec, Daemon.done, Daemon.andThen] at h
      (repeat' split at h) <;> cases h <;> rfl
  | manager c =>
    cases c with
    | storeDispatchedScheme q scheme =>
      cases h
      dsimp only
      rw [slots_modifySlots]
      rfl
    | _ =>
      simp only [exec, ManagerCall.exec, Daemon.done, Daemon.andThen] at h
      (repeat' split at h) <;> cases h <;> rfl
  | reader c =>
    cases c with
    | readerLoop q =>
      cases x with
      | received msg =>
        cases h
        exact slots_modifySlots ..
      | closed =>
        cases h
        rfl
      | _ => cases h
    | broadcast q msg =>
      cases h
      rfl
    | clearSyncFds q | clearLatestFrame q | stashLatestFrame q index seq point =>
      cases h
      dsimp only
      rw [slots_modifySlots]
      rfl
  | endpoint c =>
    cases c with
    | write d w record =>
      simp only [exec, EndpointCall.exec, EndpointCall.hangUp, Daemon.andThen] at h
      cases w with
      | frameReady q g index seq =>
        cases record with
        | none => split at h <;> cases h <;> rfl
        | some record =>
          cases x with
          | fail =>
            cases h
            rfl
          | _ =>
            cases h
            by_cases hr : r = q
            · subst hr
              simp [EndpointCall.submit, slotsAfter, submitted, slots_modifySlots]
            · simp [EndpointCall.submit, slotsAfter, submitted, slots_modifySlots, hr, Ne.symm hr]
      | _ => split at h <;> cases h <;> rfl
    | _ =>
      simp only [exec, EndpointCall.exec, EndpointCall.hangUp, Daemon.done, Daemon.andThen] at h
      (repeat' split at h) <;> cases h <;> rfl
  | apply c =>
    cases c with
    | spawn req purpose =>
      simp only [exec, ApplyCall.exec, Daemon.done] at h
      cases hn : s.resolve req with
      | none =>
        rw [hn] at h
        cases h
        simp [slotsAfter, hn]
      | some name =>
        rw [hn] at h
        cases x with
        | spawned id pid gpu reaper =>
          simp only at h
          split at h <;> cases h
          simp [Daemon.record, slots_modifySlots, slotsAfter, hn]
        | fail =>
          cases h
          simp [slotsAfter, hn]
        | _ => cases h
    | _ =>
      simp only [exec, ApplyCall.exec, Daemon.done, Daemon.andThen] at h
      (repeat' split at h) <;> cases h <;> rfl

/-- The slots of which the router, the endpoints and the reader threads share the contents. -/
structure SlotsFrame (x : Choice) (s : Daemon) (c : Call) (r : RendererId) (sl : Slots) :
    Prop where
  bindSnapshot : sl.bindSnapshot = c.snapshotAfter x s r
  syncFds : sl.syncFds = c.syncFdsAfter x s r
  latestFrame : sl.latestFrame = c.latestFrameAfter x s r

theorem slotsFrame_submitted (rec : Option FrameRecord) (sl : Slots) :
    (rec.elim sl sl.submitFrameRecord).bindSnapshot = sl.bindSnapshot ∧
      (rec.elim sl sl.submitFrameRecord).syncFds = sl.syncFds ∧
      (rec.elim sl sl.submitFrameRecord).latestFrame = sl.latestFrame := by
  cases rec <;> exact ⟨rfl, rfl, rfl⟩

theorem slotsFrame_exec (h : c.exec x fresh s = some o) (r : RendererId) :
    SlotsFrame x s c r (o.shared.slots r) := by
  rw [slots_exec h]
  cases c with
  | router c =>
    cases c with
    | onRendererBindFailed q fourcc modifier =>
      simp only [slotsAfter]
      split
      · unfold Slots.blacklistFormat
        (repeat' split) <;> exact ⟨rfl, rfl, rfl⟩
      · exact ⟨rfl, rfl, rfl⟩
    | onRendererFrame q index seq point =>
      obtain ⟨h₁, h₂, h₃⟩ := slotsFrame_submitted
        (submitted x s r (router (.onRendererFrame q index seq point))) (s.slots r)
      exact ⟨h₁, h₂, h₃⟩
    | _ => exact ⟨rfl, rfl, rfl⟩
  | manager c =>
    cases c with
    | storeDispatchedScheme q scheme =>
      simp only [slotsAfter]
      split <;> exact ⟨rfl, rfl, rfl⟩
    | _ => exact ⟨rfl, rfl, rfl⟩
  | reader c =>
    cases c with
    | readerLoop q =>
      cases x with
      | received msg =>
        by_cases hr : r = q
        · subst hr
          cases msg with
          | bindBuffers snap =>
            cases ha : snap.accepted <;> constructor <;>
              simp [slotsAfter, ReaderCall.receive, snapshotAfter, syncFdsAfter, latestFrameAfter, ha]
          | formatCaps caps =>
            cases hc : caps.unflatten <;> constructor <;>
              simp [slotsAfter, ReaderCall.receive, snapshotAfter, syncFdsAfter, latestFrameAfter, hc]
          | _ =>
            constructor <;> simp [slotsAfter, ReaderCall.receive, snapshotAfter, syncFdsAfter,
              latestFrameAfter, Slots.pushSyncFd]
        · constructor <;> cases msg <;>
            simp [slotsAfter, hr, snapshotAfter, syncFdsAfter, latestFrameAfter]
      | _ => exact ⟨rfl, rfl, rfl⟩
    | broadcast q msg => exact ⟨rfl, rfl, rfl⟩
    | stashLatestFrame q index seq point =>
      by_cases hr : r = q
      · subst hr
        constructor <;> simp [slotsAfter, snapshotAfter, syncFdsAfter, latestFrameAfter]
      · constructor <;> simp [slotsAfter, hr, snapshotAfter, syncFdsAfter, latestFrameAfter]
    | _ q =>
      by_cases hr : r = q <;> constructor <;>
        simp [slotsAfter, hr, snapshotAfter, syncFdsAfter, latestFrameAfter]
  | endpoint c =>
    cases c with
    | write d w record =>
      obtain ⟨h₁, h₂, h₃⟩ := slotsFrame_submitted
        (submitted x s r (endpoint (.write d w record))) (s.slots r)
      exact ⟨h₁, h₂, h₃⟩
    | _ => exact ⟨rfl, rfl, rfl⟩
  | apply c =>
    cases c with
    | spawn req purpose =>
      cases hn : s.resolve req with
      | none => constructor <;> simp [slotsAfter, snapshotAfter, syncFdsAfter, latestFrameAfter, hn]
      | some name =>
        cases x with
        | spawned id pid gpu reaper =>
          by_cases hr : r = id <;> constructor <;>
            simp [slotsAfter, hr, snapshotAfter, syncFdsAfter, latestFrameAfter, hn, Slots.initial]
        | _ =>
          constructor <;> simp [slotsAfter, snapshotAfter, syncFdsAfter, latestFrameAfter, hn]
    | _ => exact ⟨rfl, rfl, rfl⟩

/-- The pool of a renderer is kept, taken away with the renderer's slots, or replaced by the one
its reader receives. -/
theorem bindSnapshot_cases (h : c.exec x fresh s = some o) (r : RendererId) :
    (o.shared.slots r).bindSnapshot = (s.slots r).bindSnapshot ∨
      (o.shared.slots r).bindSnapshot = none ∨
      ∃ snap, x = .received (.bindBuffers snap) ∧ c = reader (.readerLoop r) ∧
        (o.shared.slots r).bindSnapshot = some snap := by
  rw [(slotsFrame_exec h r).bindSnapshot]
  unfold snapshotAfter
  repeat' split
  · rename_i hr
    exact .inr (.inr ⟨_, rfl, by rw [hr.1], rfl⟩)
  · exact .inl rfl
  · exact .inl rfl
  · exact .inr (.inl rfl)
  · exact .inl rfl
  · exact .inl rfl
  · exact .inl rfl

/-- A call adds at most the record it submits. -/
theorem frameRecords_exec (h : c.exec x fresh s = some o) (r : RendererId) :
    (o.shared.slots r).frameRecords.Sublist
      ((s.slots r).frameRecords ++ (c.submitted x s r).toList) := by
  have hsubmit (rec : Option FrameRecord) :
      (rec.elim (s.slots r) (s.slots r).submitFrameRecord).frameRecords.Sublist
        ((s.slots r).frameRecords ++ rec.toList) := by
    cases rec with
    | none => exact List.sublist_append_left _ _
    | some record =>
      simp only [Option.elim_some, Slots.submitFrameRecord]
      split
      · exact .refl _
      · exact List.sublist_append_left _ _
  rw [slots_exec h]
  unfold slotsAfter
  split
  · split
    · unfold Slots.blacklistFormat
      (repeat' split) <;> exact List.sublist_append_left _ _
    · exact List.sublist_append_left _ _
  · exact hsubmit _
  · exact hsubmit _
  · split <;> exact List.sublist_append_left _ _
  · split
    · split
      · rename_i msg _
        cases msg with
        | bindBuffers snap =>
          cases ha : snap.accepted <;> simp [ReaderCall.receive, ha]
        | formatCaps caps =>
          cases hc : caps.unflatten <;> simp [ReaderCall.receive, hc]
        | _ => exact List.sublist_append_left _ _
      · exact List.sublist_append_left _ _
    · exact List.sublist_append_left _ _
  · split <;> exact List.sublist_append_left _ _
  · split <;> exact List.sublist_append_left _ _
  · split <;> exact List.sublist_append_left _ _
  · repeat' split
    all_goals first
      | exact List.nil_sublist _
      | exact List.sublist_append_left _ _
  · exact List.sublist_append_left _ _

end Call

end Waywallen
