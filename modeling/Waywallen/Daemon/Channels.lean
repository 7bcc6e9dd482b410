import Waywallen.Daemon.Continues
import Waywallen.Daemon.Queues

/-!
# The channels of the displays

A display gets its channel when it is registered: nothing is put on the channel of a display that
is not.
-/

namespace Waywallen

open TaskPool

/-- Display ids are handed out in turn, and a display that has not been registered yet has an
empty channel. -/
structure ChannelsFresh (s : Daemon) : Prop where
  registered : ∀ d, s.inner.displays.containsKey d = true → d ≤ s.inner.nextDisplayId
  empty : ∀ d, s.inner.nextDisplayId < d → s.channels d = []

section Exec

variable {x : Choice} {fresh : ℕ} {s : Daemon} {c : Call} {o : Step} {d : DisplayId}

theorem mem_frameRecipients {inner : Inner} {r : RendererId} {g : ℕ} :
    d ∈ inner.frameRecipients r g ↔ ∃ l st, inner.table.linkOf d = some l ∧ l.rendererId = r ∧
      inner.displays.lookup d = some st ∧ st.lastRenderer = some r ∧
      st.lastBufferGeneration = some g := by
  rw [Inner.frameRecipients, List.mem_filter, List.mem_map]
  constructor
  · rintro ⟨⟨l, hl, rfl⟩, hst⟩
    obtain ⟨hlink, hr⟩ := Inner.mem_activeLinks.1 hl
    cases hd : inner.displays.lookup l.displayId with
    | none => simp [hd] at hst
    | some st =>
      simp only [hd, Bool.and_eq_true, beq_iff_eq] at hst
      exact ⟨l, st, hlink, hr, rfl, hst.2, hst.1⟩
  · rintro ⟨l, st, hlink, hr, hd, hlast, hgen⟩
    have hid := RoutingTable.displayId_of_linkOf hlink
    refine ⟨⟨l, Inner.mem_activeLinks.2 ⟨hid.symm ▸ hlink, hr⟩, hid⟩, ?_⟩
    simp [hd, hlast, hgen]

/-- A frame goes to each display at most once. -/
theorem nodup_frameRecipients (inner : Inner) (r : RendererId) (g : ℕ) :
    (inner.frameRecipients r g).Nodup := by
  refine List.Nodup.filter _ (List.Nodup.map_on (fun l hl k hk h => ?_) ?_)
  · -- a display has one link
    have hl' := (Inner.mem_activeLinks.1 hl).1
    have hk' := (Inner.mem_activeLinks.1 hk).1
    rw [h, hk', Option.some_inj] at hl'
    exact hl'.symm
  · refine List.Nodup.filter _ (List.Nodup.filterMap (fun i j l hi hj => ?_)
      (inner.table.wf.nodup_renderer r))
    exact (inner.table.wf.id_eq hi).symm.trans (inner.table.wf.id_eq hj)

/-- What a sync sends: the unbind of the pool the display had, and the pool of its target with its
configuration and the frame repeated from it. -/
theorem mem_syncDisplay {e : Dispatch} (h : e ∈ (s.inner.syncDisplay s.settings s.slots d).2) :
    ∃ st, s.inner.displays.lookup d = some st ∧
      ((∃ g, e = .unbind g) ∨ ∃ l k g, s.inner.syncTarget s.slots d = some (l, k, g) ∧
        (e = .bind k.id g ∨ e = .setConfig (s.inner.projection s.settings s.slots l k st.info) ∨
          ∃ f, (s.slots k.id).latestReplayable = some f ∧ f.bufferGeneration = g ∧
            e = .frame k.id g f.bufferIndex f.seq f.releasePoint 1)) := by
  rcases s.inner.syncDisplay_cases s.settings s.slots d with ⟨hidle, -⟩ |
    ⟨st, hst, -, -, ⟨-, hsent, -⟩ | ⟨l, k, g, htarget, hsent, -⟩⟩
  · simp [hidle] at h
  · rw [hsent] at h
    obtain ⟨g, -, rfl⟩ := List.mem_map.1 h
    exact ⟨st, hst, .inl ⟨g, rfl⟩⟩
  · refine ⟨st, hst, ?_⟩
    rw [hsent, List.mem_append, List.mem_cons, List.mem_cons] at h
    rcases h with h | rfl | rfl | h
    · obtain ⟨g, -, rfl⟩ := List.mem_map.1 h
      exact .inl ⟨g, rfl⟩
    · exact .inr ⟨l, k, g, htarget, .inl rfl⟩
    · exact .inr ⟨l, k, g, htarget, .inr (.inl rfl)⟩
    · simp only [Inner.replayFrame] at h
      split at h
      · simp only [List.mem_map, Option.mem_toList, Option.filter_eq_some_iff, beq_iff_eq] at h
        obtain ⟨f, ⟨hf, rfl⟩, rfl⟩ := h
        exact .inr ⟨l, k, _, htarget, .inr (.inr ⟨f, hf, rfl, rfl⟩)⟩
      · cases h

/-- What puts a message on the channel of a display: a sync, a configuration sent once more or for
a new geometry, and a frame. -/
theorem Call.mem_dispatched {e : Dispatch} (h : e ∈ c.dispatched s d) :
    (c = .router (.syncDisplay d) ∧ e ∈ (s.inner.syncDisplay s.settings s.slots d).2) ∨
    (c = .router (.resyncDisplaySetConfig d) ∧ ∃ st l k g, s.inner.displays.lookup d = some st ∧
      s.inner.syncTarget s.slots d = some (l, k, g) ∧
      e = .setConfig (s.inner.projection s.settings s.slots l k st.info)) ∨
    (∃ cfg, c = .router (.sendLinkConfig d cfg) ∧ s.inner.displays.containsKey d = true ∧
      e = .setConfig cfg) ∨
    ∃ r g index seq point, c = .router (.onRendererFrame r index seq point) ∧
      (s.inner.table.getRenderer r).isSome = true ∧ (s.slots r).generation = some g ∧
      d ∈ s.inner.frameRecipients r g ∧
      e = .frame r g index seq point (s.inner.frameRecipients r g).length := by
  cases c with
  | router c =>
    cases c with
    | syncDisplay e' =>
      simp only [dispatched] at h
      split at h
      · rename_i hd
        subst hd
        exact .inl ⟨rfl, h⟩
      · cases h
    | resyncDisplaySetConfig e' =>
      simp only [dispatched, Inner.resyncDisplaySetConfig] at h
      split at h
      · rename_i hd
        subst hd
        split at h
        · rename_i st l k g hst htarget
          exact .inr (.inl ⟨rfl, st, l, k, g, hst, htarget, List.mem_singleton.1 h⟩)
        · cases h
      · cases h
    | sendLinkConfig e' cfg =>
      simp only [dispatched] at h
      split at h
      · rename_i hd
        obtain ⟨rfl, hkey⟩ := hd
        exact .inr (.inr (.inl ⟨cfg, rfl, hkey, List.mem_singleton.1 h⟩))
      · cases h
    | onRendererFrame r index seq point =>
      simp only [dispatched] at h
      split at h
      · cases h
      · rename_i k hr
        split at h
        · cases h
        · rename_i g hg
          obtain ⟨hcount, rfl⟩ := List.mem_replicate.1 h
          rw [RoutingTable.id_of_getRenderer hr] at hg ⊢
          exact .inr (.inr (.inr ⟨r, g, index, seq, point, rfl, by rw [hr]; rfl, hg,
            List.count_pos_iff.1 (Nat.pos_of_ne_zero hcount), rfl⟩))
    | _ => cases h
  | _ => cases h

/-- Nothing is put on the channel of a display that is not registered. -/
theorem Call.dispatched_eq_nil (hd : s.inner.displays.containsKey d = false) (c : Call) :
    c.dispatched s d = [] := by
  have hlook {st : DisplayState} (h : s.inner.displays.lookup d = some st) : False := by
    simp [HashMap.containsKey, h] at hd
  refine List.eq_nil_iff_forall_not_mem.2 fun e he => ?_
  rcases mem_dispatched he with ⟨-, h⟩ | ⟨-, st, l, k, g, h, -⟩ | ⟨cfg, -, h, -⟩ |
    ⟨r, g, index, seq, point, -, -, -, h, -⟩
  · obtain ⟨st, hst, -⟩ := mem_syncDisplay h
    exact hlook hst
  · exact hlook h
  · rw [hd] at h
    cases h
  · obtain ⟨l, st, -, -, hst, -⟩ := mem_frameRecipients.1 h
    exact hlook hst

/-- A pool is bound by a sync of a display whose target has it. -/
theorem Call.eq_syncDisplay_of_bind {r : RendererId} {g : ℕ}
    (h : .bind r g ∈ c.dispatched s d) : c = .router (.syncDisplay d) ∧
      ∃ l k, s.inner.syncTarget s.slots d = some (l, k, g) ∧ k.id = r := by
  rcases mem_dispatched h with ⟨rfl, he⟩ | ⟨-, st, l, k, g, -, -, he⟩ | ⟨cfg, -, -, he⟩ |
    ⟨r, g, index, seq, point, -, -, -, -, he⟩
  · obtain ⟨st, -, ⟨g, h⟩ | ⟨l, k, g, htarget, h | h | ⟨f, -, -, h⟩⟩⟩ := mem_syncDisplay he
    · cases h
    · obtain ⟨rfl, rfl⟩ := Dispatch.bind.inj h
      exact ⟨rfl, l, k, htarget, rfl⟩
    · cases h
    · cases h
  · cases he
  · cases he
  · cases he

/-- A frame is sent when it comes, to the displays bound to its pool, or once more by a sync. -/
theorem Call.frame_dispatched {r : RendererId} {g i seq point n : ℕ}
    (h : .frame r g i seq point n ∈ c.dispatched s d) :
    (c = .router (.onRendererFrame r i seq point) ∧ (s.inner.table.getRenderer r).isSome = true ∧
      (s.slots r).generation = some g ∧ d ∈ s.inner.frameRecipients r g ∧
      n = (s.inner.frameRecipients r g).length) ∨
    (c = .router (.syncDisplay d) ∧ n = 1 ∧
      ∃ l k, s.inner.syncTarget s.slots d = some (l, k, g) ∧ k.id = r ∧
        (s.slots r).latestReplayable = some ⟨g, i, seq, point⟩) := by
  rcases mem_dispatched h with ⟨rfl, he⟩ | ⟨-, st, l, k, g, -, -, he⟩ | ⟨cfg, -, -, he⟩ |
    ⟨r, g, index, seq, point, rfl, hr, hg, hd, he⟩
  · obtain ⟨st, -, ⟨g, h⟩ | ⟨l, k, g, htarget, h | h | ⟨f, hf, hgen, h⟩⟩⟩ := mem_syncDisplay he
    · cases h
    · cases h
    · cases h
    · obtain ⟨rfl, rfl, rfl, rfl, rfl, rfl⟩ := Dispatch.frame.inj h
      exact .inr ⟨rfl, rfl, l, k, htarget, rfl, hgen ▸ hf⟩
  · cases he
  · cases he
  · obtain ⟨rfl, rfl, rfl, rfl, rfl, rfl⟩ := Dispatch.frame.inj he
    exact .inl ⟨rfl, hr, hg, hd, rfl⟩

/-- `st'` has been sent what `st` has, and knows at least as much of its consumer. -/
structure DisplayState.SentSame (st st' : DisplayState) : Prop where
  lastRenderer : st'.lastRenderer = st.lastRenderer
  lastBufferGeneration : st'.lastBufferGeneration = st.lastBufferGeneration
  consumerCaps : st.consumerCaps.isSome = true → st'.consumerCaps.isSome = true

theorem DisplayState.SentSame.refl (st : DisplayState) : st.SentSame st := ⟨rfl, rfl, id⟩

theorem sentSame_of_modify {m : HashMap DisplayId DisplayState} {e : DisplayId}
    {f : DisplayState → DisplayState} {st' : DisplayState}
    (h : (m.modify e f).lookup d = some st') (hf : ∀ st : DisplayState, st.SentSame (f st)) :
    ∃ st, m.lookup d = some st ∧ st.SentSame st' := by
  rw [HashMap.lookup_modify] at h
  split at h
  · rename_i hd
    subst hd
    obtain ⟨st, hst, rfl⟩ := Option.map_eq_some_iff.1 h
    exact ⟨st, hst, hf st⟩
  · exact ⟨st', h, .refl st'⟩

/-- What a display has been sent changes only when it is synced. -/
theorem RouterCall.sentSame {c : RouterCall} (hc : c ≠ .syncDisplay d) {st' : DisplayState}
    (h : (c.innerAfter s).displays.lookup d = some st') :
    (∃ reg b, c = .registerDisplay reg b ∧ d = s.inner.nextDisplayId + 1) ∨
      ∃ st, s.inner.displays.lookup d = some st ∧ st.SentSame st' := by
  have hsame (h : s.inner.displays.lookup d = some st') :
      ∃ st, s.inner.displays.lookup d = some st ∧ st.SentSame st' := ⟨st', h, .refl st'⟩
  cases c with
  | registerDisplay reg b =>
    simp only [innerAfter, Inner.registerDisplay, HashMap.lookup_insert_eq] at h
    split at h
    · rename_i hd
      exact .inl ⟨reg, b, rfl, hd⟩
    · exact .inr (hsame h)
  | unregisterDisplay e =>
    simp only [innerAfter, Inner.unregisterDisplay, HashMap.lookup_erase_eq] at h
    split at h
    · cases h
    · exact .inr (hsame h)
  | setConsumerCaps e caps =>
    exact .inr (sentSame_of_modify h fun _ => ⟨rfl, rfl, fun _ => rfl⟩)
  | onConsumerBindFailed e fourcc modifier =>
    exact .inr (sentSame_of_modify h fun _ => ⟨rfl, rfl, by simp⟩)
  | updateDisplaySize e width height =>
    rw [innerAfter] at h
    split at h
    · exact .inr (hsame h)
    · exact .inr (sentSame_of_modify h fun _ => ⟨rfl, rfl, id⟩)
  | updateDisplayWindowState e flags =>
    rw [innerAfter, Inner.updateDisplayWindowState] at h
    split at h
    · exact .inr (hsame h)
    · exact .inr (sentSame_of_modify h fun _ => ⟨rfl, rfl, id⟩)
  | resumeAutopause e gen =>
    rw [innerAfter, Inner.resumeAutopause] at h
    split at h
    · exact .inr (hsame h)
    · exact .inr (sentSame_of_modify h fun _ => ⟨rfl, rfl, id⟩)
  | syncDisplay e =>
    have hne : d ≠ e := fun he => hc (he ▸ rfl)
    rw [innerAfter] at h
    rcases s.inner.displays_syncDisplay s.settings s.slots e with hd | ⟨r, g, hd⟩
    · exact .inr (hsame (hd ▸ h))
    · rw [hd, HashMap.lookup_modify, if_neg hne] at h
      exact .inr (hsame h)
  | _ =>
    refine .inr (hsame ?_)
    simp only [innerAfter] at h
    (try split at h) <;> first
      | exact h
      | rw [Inner.beginUnbindAckTracking_eq] at h; exact h
      | rw [Inner.updateClearColors_eq] at h; exact h
      | rw [Inner.updateSessionState_eq] at h; exact h
      | rw [Inner.relinkDisplaysTo_eq] at h; exact h
      | rw [Inner.relinkAllDisplaysTo_eq] at h; exact h
      | rw [Inner.setLinkGeometry_eq] at h; exact h
      | rw [Inner.resyncDisplaySetConfig_eq] at h; exact h

theorem ChannelsFresh.exec (hs : ChannelsFresh s) (ho : c.exec x fresh s = some o) :
    ChannelsFresh o.shared := by
  have hle : s.inner.nextDisplayId ≤ o.shared.inner.nextDisplayId := by
    rw [Call.inner_exec ho]
    cases c with
    | router c =>
      rw [Call.innerAfter, (RouterCall.frame s c).nextDisplayId]
      cases c <;> simp [RouterCall.nextDisplayIdAfter]
    | _ => exact le_rfl
  refine ⟨fun d hd => ?_, fun d hd => ?_⟩
  · rw [Call.inner_exec ho] at hd ⊢
    cases c with
    | router c =>
      rw [Call.innerAfter] at hd ⊢
      rw [(RouterCall.frame s c).nextDisplayId]
      by_cases hold : s.inner.displays.containsKey d = true
      · refine (hs.registered d hold).trans ?_
        cases c <;> simp [RouterCall.nextDisplayIdAfter]
      · rw [Inner.containsKey_displays, RouterCall.autopauseOf_innerAfter] at hd
        rw [Inner.containsKey_displays] at hold
        cases c with
        | registerDisplay reg b =>
          simp only [RouterCall.nextDisplayIdAfter]
          dsimp only at hd
          split at hd
          · rename_i he
            exact he.le
          · exact absurd hd hold
        | unregisterDisplay e =>
          dsimp only at hd
          split at hd
          · cases hd
          · exact absurd hd hold
        | updateDisplayWindowState e flags =>
          dsimp only at hd
          split at hd
          · rename_i he
            subst he
            rw [Option.isSome_map] at hd
            exact absurd hd (by rwa [Inner.autopauseOf, Option.isSome_map] at hold)
          · exact absurd hd hold
        | resumeAutopause e gen =>
          dsimp only at hd
          split at hd
          · rename_i he
            subst he
            rw [Option.isSome_map] at hd
            exact absurd hd hold
          · exact absurd hd hold
        | _ => exact absurd hd hold
    | _ => exact hs.registered d hd
  · rw [Call.channels_exec ho, hs.empty d (hle.trans_lt hd), List.nil_append]
    refine Call.dispatched_eq_nil ?_ c
    by_contra hk
    exact absurd (hs.registered d (by simpa using hk)) (not_le.2 (hle.trans_lt hd))

/-- What is taken off a channel stays taken off. -/
theorem taken_le (ho : c.exec x fresh s = some o) (d : DisplayId) :
    s.taken d ≤ o.shared.taken d := by
  have hle (e : DisplayId) : s.taken d ≤ Function.update s.taken e (s.taken e + 1) d := by
    by_cases hd : d = e
    · subst hd
      simp
    · simp [hd]
  rw [Call.taken_exec ho]
  cases c with
  | endpoint c =>
    cases c with
    | frameLoop e =>
      simp only [Call.takenAfter]
      repeat' split
      all_goals first
        | exact le_rfl
        | exact hle e
    | _ => exact le_rfl
  | _ => exact le_rfl

/-- What a client asks for is asked of the router. -/
theorem request_router {q : ClientRequest} {next : List Call} {k : Call}
    (hq : EndpointCall.request d q = some next) (hk : k ∈ next) : ∃ c, k = .router c := by
  cases q with
  | consumerCaps caps =>
    simp only [EndpointCall.request] at hq
    split at hq <;> cases hq <;> simp only [List.mem_singleton, List.not_mem_nil] at hk
    exact ⟨_, hk⟩
  | bye => cases hq
  | _ =>
    cases hq
    exact ⟨_, List.mem_singleton.1 hk⟩

end Exec

theorem ChannelsFresh.congr {s s' : Daemon} (hs : ChannelsFresh s)
    (hk : ∀ d, s'.inner.displays.containsKey d = s.inner.displays.containsKey d)
    (hn : s'.inner.nextDisplayId = s.inner.nextDisplayId) (hc : s'.channels = s.channels) :
    ChannelsFresh s' :=
  ⟨fun d hd => hn ▸ hs.registered d (hk d ▸ hd), fun d hd => hc ▸ hs.empty d (hn ▸ hd)⟩

/-- The environment changes neither which displays there are nor what they were sent. -/
theorem ChannelsFresh.act {s : Daemon} (hs : ChannelsFresh s) (e : Environment) :
    ChannelsFresh (e.act s) := by
  cases e with
  | promoteDisplay d =>
    refine hs.congr (fun e => ?_) rfl rfl
    simp [Environment.act, Daemon.withInner, HashMap.containsKey]
  | _ => exact hs.congr (fun _ => rfl) rfl rfl

theorem ChannelsFresh.accept {s s' : Daemon} {q : Request} {t : DaemonTask}
    (hs : ChannelsFresh s) (h : q.accept s = some (s', t)) : ChannelsFresh s' := by
  obtain rfl | ⟨r, -, rfl⟩ := Request.accept_shared h
  · exact hs
  · exact hs.congr (fun _ => rfl) rfl rfl

theorem channelsFresh_initial (registry : HashMap String (List String)) :
    ChannelsFresh (.initial registry) := by
  refine ⟨fun d hd => ?_, fun d _ => rfl⟩
  simp [Daemon.initial, Inner.new, HashMap.containsKey] at hd

end Waywallen
