import Waywallen.Library.Broadcast
import Waywallen.Playlist.Engine
import Waywallen.Routing.Snapshot

/-!
# The displays as the router announces them

Registering a display and announcing it are different steps, and so are the snapshot an event
carries and the sending of the event. Whoever subscribes first and then looks at the displays is
still to be told of each display that it has not seen.
-/

namespace Waywallen

def DisplaySnapshot.ident (s : DisplaySnapshot) : DisplayIdent := ⟨s.name, s.instanceId⟩

/-- The displays an event shows. -/
def RouterEvent.shown : RouterEvent → List DisplaySnapshot
  | .displayUpsert s => [s]
  | .displaysReplace snaps => snaps
  | _ => []

def RouterEvent.Tells (e : RouterEvent) (d : DisplayId) : Prop := ∃ s ∈ e.shown, s.id = d

/-- The displays of the router, and what it has still to send about them. -/
structure RouterFeed where
  displays : HashMap DisplayId DisplayIdent := ∅
  nextDisplayId : DisplayId := 0
  /-- Registrations that have not come to their snapshot of the display yet. -/
  registering : List DisplayId := []
  /-- Events that are made and not sent yet. -/
  emitting : List RouterEvent := []
  events : Broadcast RouterEvent := { capacity := 128 }

inductive RouterAct where
  | registerDisplay (ident : DisplayIdent)
  /-- A registration takes its snapshot of the display, -/
  | announce (s : DisplaySnapshot)
  /-- or finds that the display is gone. -/
  | vanish (d : DisplayId)
  | unregisterDisplay (d : DisplayId)
  /-- A snapshot of a display that has changed. -/
  | upsert (s : DisplaySnapshot)
  | replace (snaps : List DisplaySnapshot)
  | other (e : RouterEvent)
  | send (i : ℕ)

namespace RouterFeed

variable (f : RouterFeed)

/-- What `snapshot_displays` returns. -/
def Shows (snaps : List DisplaySnapshot) : Prop :=
  snaps.map (·.id) = f.displays.keys.insertionSort (· ≤ ·) ∧
    ∀ s ∈ snaps, f.displays.lookup s.id = some s.ident

instance (snaps : List DisplaySnapshot) : Decidable (f.Shows snaps) :=
  inferInstanceAs (Decidable (_ ∧ _))

def emit (e : RouterEvent) : RouterFeed := { f with emitting := f.emitting ++ [e] }

def step : RouterAct → Option RouterFeed
  | .registerDisplay ident =>
      let id := f.nextDisplayId + 1
      some { f with
        nextDisplayId := id
        displays := f.displays.insert id ident
        registering := id :: f.registering }
  | .announce s =>
      if s.id ∈ f.registering ∧ f.displays.lookup s.id = some s.ident then
        some { f.emit (.displayUpsert s) with registering := f.registering.erase s.id }
      else none
  | .vanish d =>
      if d ∈ f.registering ∧ f.displays.lookup d = none then
        some { f with registering := f.registering.erase d }
      else none
  | .unregisterDisplay d => some { f.emit (.displayRemoved d) with displays := f.displays.erase d }
  | .upsert s =>
      if f.displays.lookup s.id = some s.ident then some (f.emit (.displayUpsert s)) else none
  | .replace snaps => if f.Shows snaps then some (f.emit (.displaysReplace snaps)) else none
  | .other e => if e.shown = [] then some (f.emit e) else none
  | .send i =>
      f.emitting[i]?.map fun e =>
        { f with emitting := f.emitting.eraseIdx i, events := f.events.send e }

/-- Nothing is left to be announced. -/
def Quiet : Prop := f.registering = [] ∧ f.emitting = []

instance : Decidable f.Quiet := inferInstanceAs (Decidable (_ ∧ _))

/-- A display that the events of the router have still to tell a receiver of. -/
def Owes (next : ℕ) (d : DisplayId) : Prop :=
  d ∈ f.registering ∨ (∃ e ∈ f.emitting, e.Tells d) ∨ f.events.Awaits RouterEvent.Tells next d

/-- The receiver knows every display or is still to be told of it. -/
def Covers (next : ℕ) (known : DisplayId → Prop) : Prop :=
  ∀ d, f.displays.containsKey d = true → known d ∨ f.Owes next d

/-- The display has been registered, and with `ident` if it still is. -/
def Genuine (d : DisplayId) (ident : DisplayIdent) : Prop :=
  (0 < d ∧ d ≤ f.nextDisplayId) ∧ ∀ ident', f.displays.lookup d = some ident' → ident = ident'

/-- All events show the displays as they were registered. -/
structure Truthful : Prop where
  id_mem : ∀ d, f.displays.containsKey d = true → 0 < d ∧ d ≤ f.nextDisplayId
  emitting : ∀ e ∈ f.emitting, ∀ s ∈ e.shown, f.Genuine s.id s.ident
  sent : ∀ e ∈ f.events.sent, ∀ s ∈ e.shown, f.Genuine s.id s.ident

variable {f} {g : RouterFeed} {a : RouterAct} {next : ℕ} {known : DisplayId → Prop}
  {d : DisplayId} {s : DisplaySnapshot}

/-! ## What a step can do -/

/-- Every step either changes the displays and makes at most the one event, or sends an event. -/
theorem step_cases (h : f.step a = some g) :
    (∃ ident, g = { f with
      nextDisplayId := f.nextDisplayId + 1
      displays := f.displays.insert (f.nextDisplayId + 1) ident
      registering := (f.nextDisplayId + 1) :: f.registering }) ∨
    (∃ e registering, g = { f.emit e with registering := registering } ∧
      (∀ s ∈ e.shown, f.displays.lookup s.id = some s.ident) ∧
      ∀ d ∈ f.registering, d ∈ registering ∨ e.Tells d) ∨
    (∃ d, g = { f with registering := f.registering.erase d } ∧ f.displays.lookup d = none) ∨
    (∃ d, g = { f.emit (.displayRemoved d) with displays := f.displays.erase d }) ∨
    (∃ i e, f.emitting[i]? = some e ∧
      g = { f with emitting := f.emitting.eraseIdx i, events := f.events.send e }) := by
  cases a with
  | registerDisplay ident => exact .inl ⟨ident, (Option.some_inj.1 h).symm⟩
  | announce s =>
    obtain ⟨⟨hmem, hlookup⟩, h⟩ := Option.ite_none_right_eq_some.1 h
    refine .inr (.inl ⟨_, _, (Option.some_inj.1 h).symm, ?_, fun d hd => ?_⟩)
    · rintro _ (_ | ⟨_, ⟨⟩⟩)
      exact hlookup
    · by_cases hds : d = s.id
      · exact .inr ⟨s, List.mem_singleton_self s, hds.symm⟩
      · exact .inl ((List.mem_erase_of_ne hds).2 hd)
  | vanish d =>
    obtain ⟨⟨-, hlookup⟩, h⟩ := Option.ite_none_right_eq_some.1 h
    exact .inr (.inr (.inl ⟨d, (Option.some_inj.1 h).symm, hlookup⟩))
  | unregisterDisplay d => exact .inr (.inr (.inr (.inl ⟨d, (Option.some_inj.1 h).symm⟩)))
  | upsert s =>
    obtain ⟨hlookup, h⟩ := Option.ite_none_right_eq_some.1 h
    refine .inr (.inl ⟨_, f.registering, (Option.some_inj.1 h).symm, ?_, fun d hd => .inl hd⟩)
    rintro _ (_ | ⟨_, ⟨⟩⟩)
    exact hlookup
  | replace snaps =>
    obtain ⟨hshows, h⟩ := Option.ite_none_right_eq_some.1 h
    exact .inr (.inl ⟨_, f.registering, (Option.some_inj.1 h).symm, hshows.2, fun d hd => .inl hd⟩)
  | other e =>
    obtain ⟨hnone, h⟩ := Option.ite_none_right_eq_some.1 h
    refine .inr (.inl ⟨e, f.registering, (Option.some_inj.1 h).symm, ?_, fun d hd => .inl hd⟩)
    rw [hnone]
    exact fun s hs => absurd hs List.not_mem_nil
  | send i =>
    obtain ⟨e, he, h⟩ := Option.map_eq_some_iff.1 h
    exact .inr (.inr (.inr (.inr ⟨i, e, he, h.symm⟩)))

theorem containsKey_of_lookup {m : HashMap DisplayId DisplayIdent} {ident : DisplayIdent}
    (h : m.lookup d = some ident) : m.containsKey d = true :=
  (HashMap.containsKey_iff m d).2 ⟨ident, h⟩

theorem length_sent_le (h : f.step a = some g) :
    f.events.sent.length ≤ g.events.sent.length := by
  obtain ⟨ident, rfl⟩ | ⟨e, registering, rfl, -, -⟩ | ⟨d', rfl, -⟩ | ⟨d', rfl⟩ | ⟨i, e, he, rfl⟩ :=
    step_cases h
  case inr.inr.inr.inr =>
    rw [Broadcast.sent_send, List.length_append]
    exact Nat.le_add_right _ _
  all_goals exact le_rfl

theorem nextDisplayId_le (h : f.step a = some g) : f.nextDisplayId ≤ g.nextDisplayId := by
  obtain ⟨ident, rfl⟩ | ⟨e, registering, rfl, -, -⟩ | ⟨d', rfl, -⟩ | ⟨d', rfl⟩ | ⟨i, e, he, rfl⟩ :=
    step_cases h
  case inl => exact Nat.le_succ _
  all_goals exact le_rfl

/-! ## What a receiver is still to be told of -/

theorem Covers.mono {known' : DisplayId → Prop} (h : f.Covers next known)
    (hk : ∀ d, known d → known' d) : f.Covers next known' :=
  fun d hd => (h d hd).imp_left (hk d)

/-- Whatever the router does, a receiver that was to be told of every display still is. -/
theorem Covers.step (h : f.Covers next known) (hnext : next ≤ f.events.sent.length)
    (hstep : f.step a = some g) : g.Covers next known := by
  intro d hd
  obtain ⟨ident, rfl⟩ | ⟨e, registering, rfl, -, hreg⟩ | ⟨d', rfl, hnone⟩ | ⟨d', rfl⟩ |
    ⟨i, e, he, rfl⟩ := step_cases hstep
  · by_cases hnew : d = f.nextDisplayId + 1
    · exact .inr (.inl (hnew ▸ List.mem_cons_self))
    · rw [HashMap.containsKey_insert, decide_eq_false hnew, Bool.false_or] at hd
      exact (h d hd).imp_right fun ho => ho.imp_left (List.mem_cons_of_mem _)
  · refine (h d hd).imp_right fun ho => ?_
    obtain hr | ⟨e', he', htells⟩ | hsent := ho
    · obtain hr | htells := hreg d hr
      · exact .inl hr
      · exact .inr (.inl ⟨e, List.mem_append_right _ (List.mem_singleton_self e), htells⟩)
    · exact .inr (.inl ⟨e', List.mem_append_left _ he', htells⟩)
    · exact .inr (.inr hsent)
  · refine (h d hd).imp_right fun ho => ho.imp_left fun hr => ?_
    have hne : d ≠ d' := by
      rintro rfl
      obtain ⟨ident, hident⟩ := (HashMap.containsKey_iff f.displays d).1 hd
      exact absurd (hnone.symm.trans hident) (Option.some_ne_none ident).symm
    exact (List.mem_erase_of_ne hne).2 hr
  · rw [HashMap.containsKey_erase, Bool.and_eq_true] at hd
    refine (h d hd.2).imp_right fun ho => ho.imp_right (Or.imp_left ?_)
    exact fun ⟨e, he, htells⟩ => ⟨e, List.mem_append_left _ he, htells⟩
  · refine (h d hd).imp_right fun ho => ?_
    obtain hr | ⟨e', he', htells⟩ | hsent := ho
    · exact .inl hr
    · obtain ⟨j, hj⟩ := List.mem_iff_getElem?.1 he'
      by_cases hij : j = i
      · subst hij
        obtain rfl := Option.some_inj.1 (he.symm.trans hj)
        exact .inr (.inr (Broadcast.awaits_send hnext htells))
      · exact .inr (.inl ⟨e', List.mem_eraseIdx_iff_getElem?.2 ⟨j, hij, hj⟩, htells⟩)
    · exact .inr (.inr (hsent.send e))

/-- A receiver that waits knows every display, if the router has nothing left to announce. -/
theorem Covers.told (h : f.Covers next known) (hquiet : f.Quiet)
    (hwait : f.events.recv next = none) (hd : f.displays.containsKey d = true) : known d := by
  obtain hk | hr | ⟨e, he, -⟩ | hsent := h d hd
  · exact hk
  · rw [hquiet.1] at hr
    cases hr
  · rw [hquiet.2] at he
    cases he
  · exact absurd hsent (Broadcast.not_awaits hwait)

/-- What a message tells of is known once it has been looked at. -/
theorem Covers.message {e : RouterEvent} {n : ℕ} (h : f.Covers next known)
    (hrecv : f.events.recv next = some (.message e, n)) :
    f.Covers n fun d => known d ∨ e.Tells d := by
  intro d hd
  obtain hk | hr | he | hsent := h d hd
  · exact .inl (.inl hk)
  · exact .inr (.inl hr)
  · exact .inr (.inr (.inl he))
  · exact (hsent.recv_message hrecv).elim (fun ht => .inl (.inr ht)) fun hs => .inr (.inr (.inr hs))

/-- A look at the displays of the router shows all of them. -/
theorem Shows.covers {snaps : List DisplaySnapshot} (h : f.Shows snaps) :
    f.Covers next fun d => ∃ s ∈ snaps, s.id = d := by
  intro d hd
  have hkey : d ∈ f.displays.keys := by
    rw [HashMap.mem_keys_iff]
    exact (HashMap.containsKey_iff f.displays d).1 hd
  rw [← List.mem_insertionSort (· ≤ ·), ← h.1, List.mem_map] at hkey
  exact .inl hkey

/-! ## What the events show -/

theorem genuine_of_lookup (hf : f.Truthful) (h : f.displays.lookup s.id = some s.ident) :
    f.Genuine s.id s.ident :=
  ⟨hf.id_mem _ (containsKey_of_lookup h), fun _ hi => Option.some_inj.1 (h.symm.trans hi)⟩

theorem Genuine.step {ident : DisplayIdent} (h : f.Genuine d ident) (hstep : f.step a = some g) :
    g.Genuine d ident := by
  obtain ⟨ident', rfl⟩ | ⟨e, registering, rfl, -, -⟩ | ⟨d', rfl, -⟩ | ⟨d', rfl⟩ |
    ⟨i, e, he, rfl⟩ := step_cases hstep
  · refine ⟨h.1.imp_right Nat.le_succ_of_le, fun ident'' hi => h.2 ident'' ?_⟩
    have hne : d ≠ f.nextDisplayId + 1 := Nat.ne_of_lt (Nat.lt_succ_of_le h.1.2)
    rwa [HashMap.lookup_insert_eq, if_neg hne] at hi
  · exact h
  · exact h
  · refine ⟨h.1, fun ident' hi => h.2 ident' ?_⟩
    rw [HashMap.lookup_erase_eq] at hi
    split at hi
    · cases hi
    · exact hi
  · exact h

theorem Truthful.step (h : f.Truthful) (hstep : f.step a = some g) : g.Truthful := by
  have hgenuine {d : DisplayId} {ident : DisplayIdent} (hs : f.Genuine d ident) :
      g.Genuine d ident := hs.step hstep
  obtain ⟨ident, rfl⟩ | ⟨e, registering, rfl, hshown, -⟩ | ⟨d', rfl, -⟩ | ⟨d', rfl⟩ |
    ⟨i, e, he, rfl⟩ := step_cases hstep
  · refine ⟨fun d hd => ?_, fun e he s hs => hgenuine (h.emitting e he s hs),
      fun e he s hs => hgenuine (h.sent e he s hs)⟩
    rw [HashMap.containsKey_insert, Bool.or_eq_true, decide_eq_true_eq] at hd
    obtain rfl | hd := hd
    · exact ⟨Nat.succ_pos _, le_rfl⟩
    · exact (h.id_mem d hd).imp_right Nat.le_succ_of_le
  · refine ⟨h.id_mem, fun e' he' s hs => ?_, h.sent⟩
    obtain he' | he' := List.mem_append.1 he'
    · exact h.emitting e' he' s hs
    · rw [List.mem_singleton.1 he'] at hs
      exact hgenuine (genuine_of_lookup h (hshown s hs))
  · exact ⟨h.id_mem, h.emitting, h.sent⟩
  · refine ⟨fun d hd => ?_, fun e he s hs => ?_, fun e he s hs => hgenuine (h.sent e he s hs)⟩
    · rw [HashMap.containsKey_erase, Bool.and_eq_true] at hd
      exact h.id_mem d hd.2
    · obtain he | he := List.mem_append.1 he
      · exact hgenuine (h.emitting e he s hs)
      · rw [List.mem_singleton.1 he] at hs
        cases hs
  · refine ⟨h.id_mem, fun e' he' s hs => h.emitting e' (List.mem_of_mem_eraseIdx he') s hs,
      fun e' he' s hs => ?_⟩
    obtain he' | he' := List.mem_append.1 he'
    · exact h.sent e' he' s hs
    · rw [List.mem_singleton.1 he'] at hs
      exact h.emitting e (List.mem_of_getElem? he) s hs

theorem truthful_init : ({} : RouterFeed).Truthful where
  id_mem d hd := by
    rw [HashMap.containsKey_empty] at hd
    exact absurd hd Bool.false_ne_true
  emitting _ he := absurd he List.not_mem_nil
  sent _ he := absurd he List.not_mem_nil

theorem Shows.genuine {snaps : List DisplaySnapshot} (h : f.Shows snaps) (hf : f.Truthful)
    (hs : s ∈ snaps) : f.Genuine s.id s.ident :=
  genuine_of_lookup hf (h.2 s hs)

theorem Truthful.message {e : RouterEvent} {n : ℕ} (h : f.Truthful)
    (hrecv : f.events.recv next = some (.message e, n)) (hs : s ∈ e.shown) :
    f.Genuine s.id s.ident :=
  h.sent e (List.mem_of_getElem? (Broadcast.recv_eq_message hrecv).1) s hs

end RouterFeed

end Waywallen
