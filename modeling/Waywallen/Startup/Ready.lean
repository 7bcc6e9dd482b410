import Waywallen.Library.Transition
import Waywallen.Startup.Feed

/-!
# How the daemon gets ready

The sources and the displays become ready at any time and in any order. Readiness is published as
an event and latched, so that it can also be read later. The dispatcher starts the recall of the
wallpapers when the sources are ready, the display watcher makes the first display known, and the
playlists are restored after both.
-/

namespace Waywallen

/-- An event of the daemon, as the dispatcher tells them apart. -/
inductive BootEvent where
  | sourcesReady
  | displayReady
  | daemonReady
  | other
deriving DecidableEq

structure EventBus where
  bus : Broadcast BootEvent := { capacity := 64 }
  sourcesReady : Bool := false
  displayReady : Bool := false
  daemonReady : Bool := false
  /-- Events that are latched and not sent yet. -/
  publishing : List BootEvent := []

namespace EventBus

variable (b : EventBus)

/-- The first half of `publish`. -/
def latch (e : BootEvent) : EventBus :=
  { b with
    sourcesReady := b.sourcesReady || e = .sourcesReady
    displayReady := b.displayReady || e = .displayReady
    daemonReady := b.daemonReady || e = .daemonReady
    publishing := b.publishing ++ [e] }

/-- The second half. -/
def send (i : ℕ) : Option EventBus :=
  b.publishing[i]?.map fun e =>
    { b with publishing := b.publishing.eraseIdx i, bus := b.bus.send e }

end EventBus

inductive DispatcherTask where
  | spawned
  /-- About to read whether the sources are ready. -/
  | checking
  | receiving
deriving DecidableEq

inductive DisplayWatcherTask where
  | spawned
  | subscribing
  | receiving
  /-- About to look at the displays because it lagged. -/
  | looking
  | finished
deriving DecidableEq

inductive HotplugTask where
  | awaitingSources
  | awaitingDisplays
  | restored
deriving DecidableEq

structure Boot where
  restoreLast : Bool
  feed : RouterFeed := {}
  events : EventBus := {}
  dispatcher : DispatcherTask := .spawned
  /-- The events that are behind the dispatcher. -/
  dispatcherNext : ℕ := 0
  recallStarted : Bool := !restoreLast
  /-- How often the recall has been started. -/
  recalls : ℕ := 0
  watcher : DisplayWatcherTask := .spawned
  watcherNext : ℕ := 0
  /-- How many events the router had sent when the watcher looked at the displays. -/
  looked : ℕ := 0
  /-- What the router sent after that and before the watcher subscribed. -/
  gap : List RouterEvent := []
  hotplug : HotplugTask := .awaitingSources

inductive BootLabel where
  | router (a : RouterAct)
  /-- Anyone publishes an event. Of the displays only the watcher tells. -/
  | publish (e : BootEvent)
  | send (i : ℕ)
  | dispatch
  | watch
  | restore

namespace Boot

variable (s : Boot)

def startRecall : Boot := { s with recallStarted := true, recalls := s.recalls + 1 }

def startRecallIf (c : Bool) : Boot := if !s.recallStarted && c then s.startRecall else s

/-- The watcher is over once it has published. -/
def publishDisplay : Boot :=
  { s with events := s.events.latch .displayReady, watcher := .finished }

def dispatchStep : Option Boot :=
  match s.dispatcher with
  | .spawned =>
      some { s with dispatcherNext := s.events.bus.subscribe, dispatcher := .checking }
  | .checking => some { s.startRecallIf s.events.sourcesReady with dispatcher := .receiving }
  | .receiving => (s.events.bus.recv s.dispatcherNext).map fun
      | (.message e, n) => { s.startRecallIf (e = .sourcesReady) with dispatcherNext := n }
      | (.lagged _, n) => { s with dispatcherNext := n, dispatcher := .checking }

def watchStep : Option Boot :=
  match s.watcher with
  | .spawned =>
      some (if s.feed.displays.keys ≠ [] then s.publishDisplay
        else { s with looked := s.feed.events.sent.length, watcher := .subscribing })
  | .subscribing =>
      some { s with
        watcherNext := s.feed.events.subscribe
        gap := s.feed.events.sent.drop s.looked
        watcher := .receiving }
  | .receiving => (s.feed.events.recv s.watcherNext).map fun
      | (.message e, n) => if e.shown ≠ [] then s.publishDisplay else { s with watcherNext := n }
      | (.lagged _, n) => { s with watcherNext := n, watcher := .looking }
  | .looking =>
      some (if s.feed.displays.keys ≠ [] then s.publishDisplay else { s with watcher := .receiving })
  | .finished => none

def restoreStep : Option Boot :=
  match s.hotplug with
  | .awaitingSources =>
      if s.events.sourcesReady then some { s with hotplug := .awaitingDisplays } else none
  | .awaitingDisplays =>
      if s.events.displayReady then some { s with hotplug := .restored } else none
  | .restored => none

def step (s : Boot) : BootLabel → Option Boot
  | .router a => (s.feed.step a).map fun feed => { s with feed := feed }
  | .publish e =>
      if e ≠ .displayReady then some { s with events := s.events.latch e } else none
  | .send i => (s.events.send i).map fun events => { s with events := events }
  | .dispatch => s.dispatchStep
  | .watch => s.watchStep
  | .restore => s.restoreStep

/-! ## The dispatcher -/

/-- The recall is started once at most, and the event that starts it is still to come as long as
it is not. -/
structure Dispatching : Prop where
  recalls : s.recalls = if s.restoreLast && s.recallStarted then 1 else 0
  enabled : s.restoreLast = false → s.recallStarted = true
  latched : .sourcesReady ∈ s.events.publishing ++ s.events.bus.sent → s.events.sourcesReady = true
  ready : 0 < s.recalls → s.events.sourcesReady = true
  next_le : s.dispatcherNext ≤ s.events.bus.sent.length
  awaits : s.dispatcher = .receiving → s.events.sourcesReady = true → s.recallStarted = false →
    .sourcesReady ∈ s.events.publishing ∨ s.events.bus.Awaits (· = ·) s.dispatcherNext .sourcesReady

variable {s} {t : Boot} {l : BootLabel} {e : BootEvent}

theorem startRecallIf_cases (s : Boot) (c : Bool) :
    s.startRecallIf c = s ∧ (c = true → s.recallStarted = true) ∨
      s.startRecallIf c = s.startRecall ∧ c = true ∧ s.recallStarted = false := by
  rw [startRecallIf]
  cases hc : c <;> cases hs : s.recallStarted
  · exact .inl ⟨rfl, nofun⟩
  · exact .inl ⟨rfl, nofun⟩
  · exact .inr ⟨rfl, rfl, rfl⟩
  · exact .inl ⟨rfl, fun _ => rfl⟩

theorem Dispatching.congr (h : s.Dispatching) (hrestore : t.restoreLast = s.restoreLast)
    (hevents : t.events = s.events) (hdispatcher : t.dispatcher = s.dispatcher)
    (hnext : t.dispatcherNext = s.dispatcherNext) (hstarted : t.recallStarted = s.recallStarted)
    (hrecalls : t.recalls = s.recalls) : t.Dispatching := by
  obtain ⟨restoreLast, feed, events, dispatcher, next, started, recalls⟩ := t
  cases hrestore
  cases hevents
  cases hdispatcher
  cases hnext
  cases hstarted
  cases hrecalls
  exact ⟨h.recalls, h.enabled, h.latched, h.ready, h.next_le, h.awaits⟩

/-- A flag that is latched stays latched, and what latches it is on its way. -/
theorem Dispatching.latch (h : s.Dispatching) (e : BootEvent) :
    { s with events := s.events.latch e }.Dispatching where
  recalls := h.recalls
  enabled := h.enabled
  latched hmem := by
    rw [EventBus.latch, Bool.or_eq_true, decide_eq_true_eq]
    rw [EventBus.latch, List.mem_append, List.mem_append, List.mem_singleton] at hmem
    obtain (hmem | rfl) | hmem := hmem
    · exact .inl (h.latched (List.mem_append_left _ hmem))
    · exact .inr rfl
    · exact .inl (h.latched (List.mem_append_right _ hmem))
  ready hpos := by
    rw [EventBus.latch, Bool.or_eq_true]
    exact .inl (h.ready hpos)
  next_le := h.next_le
  awaits hreceiving hready hstarted := by
    rw [EventBus.latch, Bool.or_eq_true, decide_eq_true_eq] at hready
    obtain hready | rfl := hready
    · exact (h.awaits hreceiving hready hstarted).imp_left (List.mem_append_left _)
    · exact .inl (List.mem_append_right _ (List.mem_singleton_self _))

theorem Dispatching.send (h : s.Dispatching) {i : ℕ} {events : EventBus}
    (hsend : s.events.send i = some events) : { s with events := events }.Dispatching := by
  obtain ⟨e, he, rfl⟩ := Option.map_eq_some_iff.1 hsend
  refine ⟨h.recalls, h.enabled, fun hmem => h.latched ?_, h.ready, ?_, fun hd hready hs => ?_⟩
  · rw [List.mem_append, Broadcast.sent_send, List.mem_append, List.mem_singleton] at hmem
    obtain hmem | hmem | rfl := hmem
    · exact List.mem_append_left _ (List.mem_of_mem_eraseIdx hmem)
    · exact List.mem_append_right _ hmem
    · exact List.mem_append_left _ (List.mem_of_getElem? he)
  · refine h.next_le.trans ?_
    rw [Broadcast.sent_send, List.length_append]
    exact Nat.le_add_right ..
  · obtain hmem | hsent := h.awaits hd hready hs
    · obtain ⟨j, hj⟩ := List.mem_iff_getElem?.1 hmem
      by_cases hij : j = i
      · subst hij
        exact .inr (Broadcast.awaits_send h.next_le (Option.some_inj.1 (he.symm.trans hj)))
      · exact .inl (List.mem_eraseIdx_iff_getElem?.2 ⟨j, hij, hj⟩)
    · exact .inr (hsent.send e)

/-- The recall is started only when the sources are ready. -/
theorem Dispatching.startRecallIf (h : s.Dispatching) {c : Bool}
    (hc : c = true → s.events.sourcesReady = true) : (s.startRecallIf c).Dispatching := by
  obtain ⟨heq, -⟩ | ⟨heq, rfl, hstarted⟩ := startRecallIf_cases s c
  · rwa [heq]
  · have hrestore : s.restoreLast = true := by
      by_contra hr
      exact Bool.false_ne_true (hstarted.symm.trans (h.enabled (Bool.eq_false_iff.2 hr)))
    have hrecalls := h.recalls
    rw [hstarted, Bool.and_false, if_neg Bool.false_ne_true] at hrecalls
    rw [heq, startRecall, hrecalls]
    exact ⟨by rw [hrestore]; rfl, fun _ => rfl, h.latched, fun _ => hc rfl, h.next_le,
      fun _ _ hs => absurd hs.symm Bool.false_ne_true⟩

@[simp] theorem recallStarted_startRecallIf (s : Boot) (c : Bool) :
    (s.startRecallIf c).recallStarted = (s.recallStarted || c) := by
  cases hs : s.recallStarted <;> cases c <;> simp [Boot.startRecallIf, startRecall, hs]

@[simp] theorem events_startRecallIf (s : Boot) (c : Bool) :
    (s.startRecallIf c).events = s.events := by
  obtain ⟨heq, -⟩ | ⟨heq, -⟩ := startRecallIf_cases s c
  · rw [heq]
  · rw [heq]
    rfl

theorem Dispatching.dispatchStep (h : s.Dispatching) (hstep : s.dispatchStep = some t) :
    t.Dispatching := by
  rw [Boot.dispatchStep] at hstep
  split at hstep
  · cases hstep
    exact ⟨h.recalls, h.enabled, h.latched, h.ready, le_rfl, nofun⟩
  · cases hstep
    have hstart : (s.startRecallIf s.events.sourcesReady).Dispatching := h.startRecallIf id
    refine ⟨hstart.recalls, hstart.enabled, hstart.latched, hstart.ready, hstart.next_le, ?_⟩
    intro _ hready hstarted
    rw [events_startRecallIf] at hready
    rw [recallStarted_startRecallIf, hready, Bool.or_true] at hstarted
    exact absurd hstarted.symm Bool.false_ne_true
  · rename_i hreceiving
    obtain ⟨⟨r, n⟩, hrecv, hstep⟩ := Option.map_eq_some_iff.1 hstep
    subst hstep
    have hle := (Broadcast.le_of_recv hrecv).2
    cases r with
    | message e =>
      have hsent : e ∈ s.events.bus.sent :=
        List.mem_of_getElem? (Broadcast.recv_eq_message hrecv).1
      have hstart : (s.startRecallIf (e = .sourcesReady)).Dispatching := by
        refine h.startRecallIf fun he => h.latched (List.mem_append_right _ ?_)
        rwa [← of_decide_eq_true he]
      refine ⟨hstart.recalls, hstart.enabled, hstart.latched, hstart.ready, ?_, ?_⟩
      · rwa [events_startRecallIf]
      intro _ hready hstarted
      rw [events_startRecallIf] at hready
      rw [recallStarted_startRecallIf, Bool.or_eq_false_iff] at hstarted
      rw [events_startRecallIf]
      refine (h.awaits hreceiving hready hstarted.1).imp_right fun hawaits => ?_
      exact (hawaits.recv_message hrecv).resolve_left (of_decide_eq_false hstarted.2)
    | lagged missed =>
      exact ⟨h.recalls, h.enabled, h.latched, h.ready, hle, nofun⟩

/-! ## The display watcher -/

/-- The watcher publishes what it has seen, or goes on. -/
theorem watchStep_cases (h : s.watchStep = some t) :
    (t = s.publishDisplay ∧ (s.feed.displays.keys ≠ [] ∨ ∃ e n,
      s.feed.events.recv s.watcherNext = some (.message e, n) ∧ e.shown ≠ [])) ∨
    (s.watcher ≠ .finished ∧ ∃ watcher next looked gap, t = { s with
      watcher := watcher, watcherNext := next, looked := looked, gap := gap } ∧
        watcher ≠ .finished) := by
  rw [watchStep] at h
  split at h
  · rename_i hwatcher
    cases h
    split
    · rename_i hkeys
      exact .inl ⟨rfl, .inl hkeys⟩
    · exact .inr ⟨by rw [hwatcher]; exact nofun, _, _, _, _, rfl, nofun⟩
  · rename_i hwatcher
    cases h
    exact .inr ⟨by rw [hwatcher]; exact nofun, _, _, _, _, rfl, nofun⟩
  · rename_i hwatcher
    obtain ⟨⟨r, n⟩, hrecv, rfl⟩ := Option.map_eq_some_iff.1 h
    cases r with
    | message e =>
      dsimp only
      split
      · rename_i hshown
        exact .inl ⟨rfl, .inr ⟨e, n, hrecv, hshown⟩⟩
      · exact .inr ⟨by rw [hwatcher]; exact nofun, _, _, _, _, rfl, by rw [hwatcher]; exact nofun⟩
    | lagged missed =>
      exact .inr ⟨by rw [hwatcher]; exact nofun, _, _, _, _, rfl, nofun⟩
  · rename_i hwatcher
    cases h
    split
    · rename_i hkeys
      exact .inl ⟨rfl, .inl hkeys⟩
    · exact .inr ⟨by rw [hwatcher]; exact nofun, _, _, _, _, rfl, nofun⟩
  · cases h

theorem Dispatching.step (h : s.Dispatching) (hstep : s.step l = some t) : t.Dispatching := by
  cases l with
  | router a =>
    obtain ⟨feed, -, rfl⟩ := Option.map_eq_some_iff.1 hstep
    exact h.congr rfl rfl rfl rfl rfl rfl
  | publish e =>
    obtain ⟨-, hstep⟩ := Option.ite_none_right_eq_some.1 hstep
    cases hstep
    exact h.latch e
  | send i =>
    obtain ⟨events, hsend, rfl⟩ := Option.map_eq_some_iff.1 hstep
    exact h.send hsend
  | dispatch => exact h.dispatchStep hstep
  | watch =>
    obtain ⟨rfl, -⟩ | ⟨-, _, _, _, _, rfl, -⟩ := watchStep_cases hstep
    · exact (h.latch .displayReady).congr rfl rfl rfl rfl rfl rfl
    · exact h.congr rfl rfl rfl rfl rfl rfl
  | restore =>
    simp only [Boot.step, restoreStep] at hstep
    split at hstep
    · obtain ⟨-, hstep⟩ := Option.ite_none_right_eq_some.1 hstep
      cases hstep
      exact h.congr rfl rfl rfl rfl rfl rfl
    · obtain ⟨-, hstep⟩ := Option.ite_none_right_eq_some.1 hstep
      cases hstep
      exact h.congr rfl rfl rfl rfl rfl rfl
    · cases hstep

/-- As long as no display has been published, the watcher is still to be told of every display
that was not announced behind its back. -/
structure Watched (s : Boot) : Prop where
  truthful : s.feed.Truthful
  published : s.events.displayReady = true ↔ s.watcher = .finished
  registered : s.events.displayReady = true → 0 < s.feed.nextDisplayId
  next_le : s.watcherNext ≤ s.feed.events.sent.length
  looked_le : s.looked ≤ s.feed.events.sent.length
  subscribing : s.watcher = .subscribing → s.feed.Covers s.looked fun _ => False
  receiving : s.watcher = .receiving →
    s.feed.Covers s.watcherNext fun d => ∃ e ∈ s.gap, e.Tells d

theorem covers_of_empty {f : RouterFeed} {next : ℕ} {known : DisplayId → Prop}
    (h : ¬ f.displays.keys ≠ []) : f.Covers next known := by
  intro d hd
  have hmem : d ∈ f.displays.keys := by
    rw [HashMap.mem_keys_iff]
    exact (HashMap.containsKey_iff f.displays d).1 hd
  rw [not_not.1 h] at hmem
  cases hmem

theorem Watched.publishDisplay (h : s.Watched) (hpos : 0 < s.feed.nextDisplayId) :
    s.publishDisplay.Watched where
  truthful := h.truthful
  published := by simp [Boot.publishDisplay, EventBus.latch]
  registered _ := hpos
  next_le := h.next_le
  looked_le := h.looked_le
  subscribing := nofun
  receiving := nofun

/-- The watcher publishes a display only after one has been registered. -/
theorem Watched.registered_of_seen (h : s.Watched) (hseen : s.feed.displays.keys ≠ [] ∨ ∃ e n,
      s.feed.events.recv s.watcherNext = some (.message e, n) ∧ e.shown ≠ []) :
    0 < s.feed.nextDisplayId := by
  obtain hkeys | ⟨e, n, hrecv, hshown⟩ := hseen
  · obtain ⟨d, hd⟩ := List.exists_mem_of_ne_nil _ hkeys
    rw [HashMap.mem_keys_iff] at hd
    have hmem := h.truthful.id_mem d ((HashMap.containsKey_iff _ _).2 hd)
    exact hmem.1.trans_le hmem.2
  · obtain ⟨snap, hsnap⟩ := List.exists_mem_of_ne_nil _ hshown
    have hmem := (h.truthful.message hrecv hsnap).1
    exact hmem.1.trans_le hmem.2

theorem Watched.watchStep (h : s.Watched) (hstep : s.watchStep = some t) : t.Watched := by
  obtain ⟨rfl, hseen⟩ | ⟨hwatcher, watcher, next, looked, gap, rfl, hnot⟩ := watchStep_cases hstep
  · exact h.publishDisplay (h.registered_of_seen hseen)
  -- What the step leaves alone, and what it says of the state it comes to.
  have hrest (hnext : next ≤ s.feed.events.sent.length)
      (hlooked : looked ≤ s.feed.events.sent.length)
      (hsub : watcher = .subscribing → s.feed.Covers looked fun _ => False)
      (hrec : watcher = .receiving → s.feed.Covers next fun d => ∃ e ∈ gap, e.Tells d) :
      Watched { s with watcher := watcher, watcherNext := next, looked := looked, gap := gap } :=
    ⟨h.truthful, iff_of_false (fun hr => hwatcher (h.published.1 hr)) hnot, h.registered, hnext,
      hlooked, hsub, hrec⟩
  rw [Boot.watchStep] at hstep
  split at hstep
  case h_1 =>
    split at hstep
    · exact absurd (congrArg Boot.watcher (Option.some_inj.1 hstep)).symm hnot
    · rename_i hkeys
      cases hstep
      exact hrest h.next_le le_rfl (fun _ => covers_of_empty hkeys) nofun
  case h_2 hsubscribing =>
    cases hstep
    refine hrest le_rfl h.looked_le nofun fun _ d hd => ?_
    obtain hfalse | hr | he | hsent := h.subscribing hsubscribing d hd
    · exact hfalse.elim
    · exact .inr (.inl hr)
    · exact .inr (.inr (.inl he))
    · exact .inl hsent
  case h_3 hreceiving =>
    obtain ⟨⟨r, n⟩, hrecv, hstep⟩ := Option.map_eq_some_iff.1 hstep
    have hle := (Broadcast.le_of_recv hrecv).2
    cases r with
    | message e =>
      dsimp only at hstep
      split at hstep
      · exact absurd (congrArg Boot.watcher hstep).symm hnot
      · rename_i hshown
        cases hstep
        refine hrest hle h.looked_le (fun hs => ?_) fun _ => ?_
        · rw [hreceiving] at hs
          cases hs
        · refine ((h.receiving hreceiving).message hrecv).mono fun d hd => hd.resolve_right ?_
          rintro ⟨snap, hsnap, -⟩
          rw [not_not.1 hshown] at hsnap
          cases hsnap
    | lagged missed =>
      cases hstep
      exact hrest hle h.looked_le nofun nofun
  case h_4 =>
    split at hstep
    · exact absurd (congrArg Boot.watcher (Option.some_inj.1 hstep)).symm hnot
    · rename_i hkeys
      cases hstep
      exact hrest h.next_le h.looked_le nofun fun _ => covers_of_empty hkeys
  case h_5 => cases hstep

theorem exists_startRecallIf (s : Boot) (c : Bool) : ∃ started recalls,
    s.startRecallIf c = { s with recallStarted := started, recalls := recalls } := by
  obtain ⟨heq, -⟩ | ⟨heq, -⟩ := startRecallIf_cases s c
  · exact ⟨s.recallStarted, s.recalls, heq⟩
  · exact ⟨true, s.recalls + 1, heq⟩

/-- What the dispatcher leaves alone. -/
theorem dispatchStep_eq_some (h : s.dispatchStep = some t) :
    ∃ dispatcher next started recalls, t = { s with
      dispatcher := dispatcher, dispatcherNext := next, recallStarted := started,
      recalls := recalls } := by
  rw [Boot.dispatchStep] at h
  split at h
  · cases h
    exact ⟨_, _, _, _, rfl⟩
  · cases h
    obtain ⟨started, recalls, heq⟩ := exists_startRecallIf s s.events.sourcesReady
    rw [heq]
    exact ⟨_, _, _, _, rfl⟩
  · obtain ⟨⟨r, n⟩, -, rfl⟩ := Option.map_eq_some_iff.1 h
    cases r with
    | message e =>
      obtain ⟨started, recalls, heq⟩ := exists_startRecallIf s (e = .sourcesReady)
      dsimp only
      rw [heq]
      exact ⟨_, _, _, _, rfl⟩
    | lagged missed => exact ⟨_, _, _, _, rfl⟩

theorem Watched.congr (h : s.Watched) (hfeed : t.feed = s.feed)
    (hready : t.events.displayReady = s.events.displayReady) (hwatcher : t.watcher = s.watcher)
    (hnext : t.watcherNext = s.watcherNext) (hlooked : t.looked = s.looked)
    (hgap : t.gap = s.gap) : t.Watched where
  truthful := hfeed ▸ h.truthful
  published := by rw [hready, hwatcher, h.published]
  registered hr := by
    rw [hfeed]
    exact h.registered (hready.symm.trans hr)
  next_le := by rw [hfeed, hnext]; exact h.next_le
  looked_le := by rw [hfeed, hlooked]; exact h.looked_le
  subscribing hs := by
    rw [hfeed, hlooked]
    exact h.subscribing (hwatcher.symm.trans hs)
  receiving hr := by
    rw [hfeed, hnext, hgap]
    exact h.receiving (hwatcher.symm.trans hr)

theorem Watched.step (h : s.Watched) (hstep : s.step l = some t) : t.Watched := by
  cases l with
  | router a =>
    obtain ⟨feed, hfeed, rfl⟩ := Option.map_eq_some_iff.1 hstep
    have hsent := RouterFeed.length_sent_le hfeed
    exact ⟨h.truthful.step hfeed, h.published,
      fun hr => (h.registered hr).trans_le (RouterFeed.nextDisplayId_le hfeed),
      h.next_le.trans hsent, h.looked_le.trans hsent,
      fun hs => (h.subscribing hs).step h.looked_le hfeed,
      fun hr => (h.receiving hr).step h.next_le hfeed⟩
  | publish e =>
    obtain ⟨hne, hstep⟩ := Option.ite_none_right_eq_some.1 hstep
    cases hstep
    refine h.congr rfl ?_ rfl rfl rfl rfl
    rw [EventBus.latch, decide_eq_false hne, Bool.or_false]
  | send i =>
    obtain ⟨events, hsend, rfl⟩ := Option.map_eq_some_iff.1 hstep
    obtain ⟨e, -, rfl⟩ := Option.map_eq_some_iff.1 hsend
    exact h.congr rfl rfl rfl rfl rfl rfl
  | dispatch =>
    obtain ⟨dispatcher, next, started, recalls, rfl⟩ := dispatchStep_eq_some hstep
    exact h.congr rfl rfl rfl rfl rfl rfl
  | watch => exact h.watchStep hstep
  | restore =>
    simp only [Boot.step, restoreStep] at hstep
    split at hstep
    · obtain ⟨-, hstep⟩ := Option.ite_none_right_eq_some.1 hstep
      cases hstep
      exact h.congr rfl rfl rfl rfl rfl rfl
    · obtain ⟨-, hstep⟩ := Option.ite_none_right_eq_some.1 hstep
      cases hstep
      exact h.congr rfl rfl rfl rfl rfl rfl
    · cases hstep

/-! ## The playlists -/

/-- The playlists have waited for what is ready. -/
structure Restoring (s : Boot) : Prop where
  sources : s.hotplug ≠ .awaitingSources → s.events.sourcesReady = true
  displays : s.hotplug = .restored → s.events.displayReady = true

theorem Restoring.mono (h : s.Restoring) (hhotplug : t.hotplug = s.hotplug)
    (hsources : s.events.sourcesReady = true → t.events.sourcesReady = true)
    (hdisplays : s.events.displayReady = true → t.events.displayReady = true) : t.Restoring where
  sources hne := hsources (h.sources (hhotplug ▸ hne))
  displays heq := hdisplays (h.displays (hhotplug.symm.trans heq))

theorem Restoring.latch (h : s.Restoring) (ht : t.hotplug = s.hotplug)
    (he : t.events = s.events.latch e) : t.Restoring := by
  refine h.mono ht (fun hs => ?_) fun hd => ?_
  · rw [he, EventBus.latch, hs, Bool.true_or]
  · rw [he, EventBus.latch, hd, Bool.true_or]

theorem Restoring.step (h : s.Restoring) (hstep : s.step l = some t) : t.Restoring := by
  cases l with
  | router a =>
    obtain ⟨feed, -, rfl⟩ := Option.map_eq_some_iff.1 hstep
    exact h.mono rfl id id
  | publish e =>
    obtain ⟨-, hstep⟩ := Option.ite_none_right_eq_some.1 hstep
    cases hstep
    exact h.latch rfl rfl
  | send i =>
    obtain ⟨events, hsend, rfl⟩ := Option.map_eq_some_iff.1 hstep
    obtain ⟨e, -, rfl⟩ := Option.map_eq_some_iff.1 hsend
    exact h.mono rfl id id
  | dispatch =>
    obtain ⟨dispatcher, next, started, recalls, rfl⟩ := dispatchStep_eq_some hstep
    exact h.mono rfl id id
  | watch =>
    obtain ⟨rfl, -⟩ | ⟨-, _, _, _, _, rfl, -⟩ := watchStep_cases hstep
    · exact h.latch rfl rfl
    · exact h.mono rfl id id
  | restore =>
    simp only [Boot.step, restoreStep] at hstep
    split at hstep
    · obtain ⟨hready, hstep⟩ := Option.ite_none_right_eq_some.1 hstep
      cases hstep
      exact ⟨fun _ => hready, nofun⟩
    · rename_i hhotplug
      obtain ⟨hready, hstep⟩ := Option.ite_none_right_eq_some.1 hstep
      cases hstep
      exact ⟨fun _ => h.sources (by rw [hhotplug]; exact nofun), fun _ => hready⟩
    · cases hstep

/-! ## The run -/

/-- Nothing is left to be sent, and nobody has a step to take. -/
def Settled (s : Boot) : Prop :=
  s.feed.Quiet ∧ s.events.publishing = [] ∧ s.dispatchStep = none ∧ s.watchStep = none ∧
    s.restoreStep = none

theorem receiving_of_dispatchStep (h : s.dispatchStep = none) :
    s.dispatcher = .receiving ∧ s.events.bus.recv s.dispatcherNext = none := by
  rw [Boot.dispatchStep] at h
  split at h
  · cases h
  · cases h
  · rename_i hreceiving
    exact ⟨hreceiving, Option.map_eq_none_iff.1 h⟩

theorem receiving_of_watchStep (h : s.watchStep = none) : s.watcher = .finished ∨
    s.watcher = .receiving ∧ s.feed.events.recv s.watcherNext = none := by
  rw [Boot.watchStep] at h
  split at h
  · cases h
  · cases h
  · rename_i hreceiving
    exact .inr ⟨hreceiving, Option.map_eq_none_iff.1 h⟩
  · cases h
  · rename_i hfinished
    exact .inl hfinished

theorem dispatching_init (restoreLast : Bool) : Dispatching { restoreLast := restoreLast } where
  recalls := by cases restoreLast <;> rfl
  enabled h := congrArg not h
  latched h := absurd h List.not_mem_nil
  ready h := absurd h (Nat.lt_irrefl 0)
  next_le := le_rfl
  awaits h := DispatcherTask.noConfusion h

theorem watched_init (restoreLast : Bool) : Watched { restoreLast := restoreLast } where
  truthful := RouterFeed.truthful_init
  published := iff_of_false Bool.false_ne_true fun h => DisplayWatcherTask.noConfusion h
  registered h := absurd h Bool.false_ne_true
  next_le := le_rfl
  looked_le := le_rfl
  subscribing h := DisplayWatcherTask.noConfusion h
  receiving h := DisplayWatcherTask.noConfusion h

theorem restoring_init (restoreLast : Bool) : Restoring { restoreLast := restoreLast } where
  sources h := absurd rfl h
  displays h := HotplugTask.noConfusion h

/-- The recall is started at most once, only if it is asked for and the sources are ready; a
display is made known after one has been registered, and the playlists are restored after both.
When everyone waits, the sources are ready and there is a display, all of this has happened, unless
the displays were announced before the watcher subscribed and after it had looked. -/
theorem boots {restoreLast : Bool} {ls : List BootLabel}
    (hrun : Transition.run step { restoreLast := restoreLast } ls = some s) :
    (s.recalls ≤ 1 ∧ (0 < s.recalls → s.restoreLast = true ∧ s.events.sourcesReady = true)) ∧
    (s.events.displayReady = true → 0 < s.feed.nextDisplayId) ∧
    (s.hotplug = .restored → s.events.sourcesReady = true ∧ s.events.displayReady = true) ∧
    (s.Settled → s.events.sourcesReady = true →
      (s.restoreLast = true → s.recalls = 1) ∧
        ∀ d, s.feed.displays.containsKey d = true →
          s.hotplug = .restored ∨ s.events.displayReady = false ∧ ∃ e ∈ s.gap, e.Tells d) := by
  have hdispatching : s.Dispatching := Transition.invariant (fun _ _ _ hs hstep => hs.step hstep)
    (dispatching_init restoreLast) hrun
  have hwatched : s.Watched := Transition.invariant (fun _ _ _ hs hstep => hs.step hstep)
    (watched_init restoreLast) hrun
  have hrestoring : s.Restoring := Transition.invariant (fun _ _ _ hs hstep => hs.step hstep)
    (restoring_init restoreLast) hrun
  have hrecalls := hdispatching.recalls
  refine ⟨⟨?_, fun hpos => ⟨?_, hdispatching.ready hpos⟩⟩, hwatched.registered,
    fun hr => ⟨hrestoring.sources (by rw [hr]; exact nofun), hrestoring.displays hr⟩, ?_⟩
  · rw [hrecalls]
    split <;> omega
  · by_contra hr
    rw [Bool.eq_false_iff.2 hr, Bool.false_and, if_neg Bool.false_ne_true] at hrecalls
    omega
  rintro ⟨hquiet, hpublishing, hdispatch, hwatch, hrestore⟩ hready
  obtain ⟨hreceiving, hwait⟩ := receiving_of_dispatchStep hdispatch
  constructor
  · intro hr
    have hstarted : s.recallStarted = true := by
      by_contra hs
      obtain hmem | hawaits := hdispatching.awaits hreceiving hready (Bool.eq_false_iff.2 hs)
      · rw [hpublishing] at hmem
        cases hmem
      · exact Broadcast.not_awaits hwait hawaits
    rw [hrecalls, hr, hstarted]
    rfl
  intro d hd
  obtain hfinished | ⟨hreceiving, hwait⟩ := receiving_of_watchStep hwatch
  · have hdisplay := hwatched.published.2 hfinished
    refine .inl ?_
    rw [restoreStep, hready, hdisplay] at hrestore
    split at hrestore
    · cases hrestore
    · cases hrestore
    · assumption
  · refine .inr ⟨Bool.eq_false_iff.2 fun hdisplay => ?_, ?_⟩
    · have hfinished := hwatched.published.1 hdisplay
      rw [hreceiving] at hfinished
      cases hfinished
    · exact (hwatched.receiving hreceiving).told hquiet hwait hd

/-- A display is announced after the watcher has looked and before it subscribes. -/
def missedDisplay : List BootLabel :=
  let snap : DisplaySnapshot := ⟨1, "eDP-1", none, 1920, 1080, 60000, [], .unknown, default,
    default, .global⟩
  [.watch, .router (.registerDisplay snap.ident), .router (.announce snap), .router (.send 0),
    .watch, .dispatch, .dispatch, .publish .sourcesReady, .send 0, .dispatch, .restore]

theorem boots_missedDisplay :
    ∃ s, Transition.run step { restoreLast := true } missedDisplay = some s ∧ s.Settled ∧
      s.recalls = 1 ∧ s.feed.displays.containsKey 1 = true ∧ s.hotplug = .awaitingDisplays ∧
      ∃ e ∈ s.gap, e.Tells 1 := by
  have hrun : Transition.run step { restoreLast := true } missedDisplay =
      some (Transition.reached step { restoreLast := true } missedDisplay (by decide)) :=
    Transition.run_reached _ _
  have hsettled : Settled (Transition.reached step { restoreLast := true } missedDisplay
      (by decide)) := ⟨by decide, by decide, by decide, by decide, by decide⟩
  have hwaits : (Transition.reached step { restoreLast := true } missedDisplay
      (by decide)).hotplug = .awaitingDisplays := by decide
  obtain ⟨hrecalls, hdisplays⟩ := (boots hrun).2.2.2 hsettled (by decide)
  refine ⟨_, hrun, hsettled, hrecalls (by decide), by decide, hwaits, ?_⟩
  refine ((hdisplays 1 (by decide)).resolve_left fun hr => ?_).2
  rw [hwaits] at hr
  cases hr

end Boot

end Waywallen
