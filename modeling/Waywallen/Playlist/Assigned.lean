import Waywallen.Playlist.Agree

/-!
# Assignments when everything has finished

In a run whose steps all act on what is still so, the displays the engine owns are registered and
their playlists exist, and what is saved for each registered display is what the engine owns it
with, once nothing is pending any more.
-/

namespace Waywallen

open TaskPool

namespace PlaylistEngine

open EngineCall

variable {s : PlaylistEngine} {c : EngineCall} {cs : List EngineCall}

section Exec

variable {x : EngineChoice} {o : Outcome PlaylistEngine EngineCall}

theorem Agreeing.exec {rest : List EngineCall} (h : Agreeing s (c :: s.todo rest))
    (ho : c.exec x s = some o) (hin : s.UpToDate (s.todo rest) x c) :
    Agreeing o.shared (o.shared.todo (o.next ++ rest)) := by
  have put (s' next) (h' : Agreeing s' (next ++ s.todo rest)) (hev : s'.events = s.events) :
      Agreeing s' (s'.todo (next ++ rest)) :=
    h'.congr fun k => by rw [mem_todo_append, List.mem_append, todo, todo, hev]
  cases c with
  | getPlaylist a =>
    obtain ⟨hs, h'⟩ := h.lookUp (a := a) ho hin ⟨rfl, rfl, rfl⟩ rfl rfl (fun _ => rfl)
      (fun d p hd => by simpa [restores] using hd) fun d p hd => .inl hd
    rw [hs]
    exact put _ _ h' rfl
  | resolveItems a =>
    obtain ⟨hs, h'⟩ := h.lookUp (a := a) ho hin ⟨rfl, rfl, rfl⟩ rfl rfl (fun _ => rfl)
      (fun d p hd => by simpa [restores] using hd) fun d p hd => .inl hd
    rw [hs]
    exact put _ _ h' rfl
  | targets a =>
    obtain rfl := andThen_eq ho
    refine put _ _ (h.goOn rfl rfl rfl (fun _ => id) rfl (h.toNamed.tail.plain fun k hk => ?_)
      (by rintro _ ⟨⟩) (by rintro _ _ _ ⟨⟩) fun d ident _ _ hd => ?_) rfl
    · obtain hk | hk := List.mem_append.1 hk
      · obtain ⟨d, -, rfl⟩ := List.mem_map.1 hk
        exact ⟨rfl, rfl, rfl⟩
      · split at hk
        · cases List.mem_singleton.1 hk
          exact ⟨rfl, rfl, rfl⟩
        · cases hk
    · -- the watcher asks for one display, and it is a target
      obtain hd | ⟨p, -, hd⟩ := hd
      · cases hd
      · obtain ⟨-, hids, -⟩ : a.resume = true ∧ a.displayIds = [d] ∧ a.playlistId = p := by
          simpa [restores] using hd
        refine .inr (.inl ⟨.release d a.playlistId, ?_, rfl⟩)
        rw [hids]
        simp
  | release d pid | removeRotation d =>
    obtain rfl := andThen_eq ho
    refine put _ [_] (h.drop rfl (fun e he => (Option.some_inj.1 he).symm)
      (fun _ _ => not_awaits) (h.toNamed.tail.plain fun k hk => ?_)
      fun _ _ => ⟨_, List.mem_cons_self, rfl⟩) rfl
    cases List.mem_singleton.1 hk
    exact ⟨rfl, rfl, rfl⟩
  | applyWallpaper d pid =>
    obtain rfl := andThen_eq ho
    refine put _ [_] (h.goOn rfl rfl rfl (fun _ => id) rfl
      (h.toNamed.tail.plain fun k hk => ?_) (by rintro _ ⟨⟩) (fun e _ _ he => ?_)
      fun e _ _ _ he => absurd he not_awaits) rfl
    · cases List.mem_singleton.1 hk
      exact ⟨rfl, rfl, rfl⟩
    · exact ⟨_, List.mem_cons_self, he⟩
  | insertRotation d pid =>
    obtain rfl := andThen_eq ho
    exact put _ [_] (h.insertRotation hin) rfl
  | persistAssignment d pid =>
    simp only [EngineCall.exec] at ho
    cases hreg : s.displays.lookup d with
    | some ident =>
      rw [hreg] at ho
      obtain rfl := andThen_eq ho
      refine put _ [_] (h.goOn rfl rfl rfl (fun _ => id) rfl
        (h.toNamed.tail.reads fun k hk => ?_) (by rintro _ ⟨⟩)
        (fun e _ _ he => ⟨_, List.mem_cons_self, he⟩)
        fun e _ _ _ he => absurd he not_awaits) rfl
      cases List.mem_singleton.1 hk
      exact ⟨d, ident, hreg, rfl, rfl, rfl⟩
    | none =>
      rw [hreg] at ho
      obtain rfl := done_eq ho
      refine put _ [] (h.goOn rfl rfl rfl (fun _ => id) rfl h.toNamed.tail
        (by rintro _ ⟨⟩) (fun e ident hident he => ?_)
        fun e _ _ _ he => absurd he not_awaits) rfl
      cases he
      rw [hreg] at hident
      cases hident
  | saveAssignment d key pid =>
    obtain rfl := done_eq ho
    refine put _ [] (h.save hin rfl (fun _ _ => not_awaits)
      fun e ident hident he => ?_) rfl
    cases he
    exact (h.keyed _ List.mem_cons_self (d, key) rfl ident hident).symm
  | deactivate ids =>
    obtain ⟨ks, rfl⟩ : ∃ ks : List DisplayId,
        o = { shared := s, next := ks.map .removeRotation } := by
      cases ids with
      | nil =>
        obtain ⟨ks, -, rfl⟩ := inOrder_eq ho
        exact ⟨ks, rfl⟩
      | cons d ids => exact ⟨d :: ids, andThen_eq ho⟩
    refine put _ _ (h.idle rfl rfl rfl (fun _ => id) rfl (fun k hk => ?_) rfl rfl
      fun _ _ => not_awaits) rfl
    obtain ⟨d, -, rfl⟩ := List.mem_map.1 hk
    exact ⟨rfl, rfl, rfl⟩
  | deactivateForPlaylist pid | rebuildForPlaylist pid =>
    obtain ⟨ks, -, rfl⟩ := inOrder_eq ho
    refine put _ _ (h.idle rfl rfl rfl (fun _ => id) rfl (fun k hk => ?_) rfl rfl
      fun _ _ => not_awaits) rfl
    split at hk
    · cases hk
    · cases List.mem_singleton.1 hk
      exact ⟨rfl, rfl, rfl⟩
  | deletePlaylist pid =>
    simp only [EngineCall.exec] at ho
    split at ho
    · obtain rfl := done_eq ho
      exact put _ [] (h.idle rfl rfl rfl (fun _ => id) rfl (by rintro _ ⟨⟩) rfl rfl
        fun _ _ => not_awaits) rfl
    · rename_i hx
      obtain rfl := done_eq ho
      exact put _ [] (h.deletePlaylist (hin.resolve_left hx)) rfl
  | setItems pid entryIds =>
    simp only [EngineCall.exec] at ho
    split at ho
    · obtain rfl := andThen_eq ho
      refine put _ [_] (h.idle rfl rfl rfl (fun q hq => ?_) rfl (fun k hk => ?_) rfl rfl
        fun _ _ => not_awaits) rfl
      · rw [HashMap.containsKey_insert, hq, Bool.or_true]
      · cases List.mem_singleton.1 hk
        exact ⟨rfl, rfl, rfl⟩
    · obtain rfl := done_eq ho
      exact put _ [] (h.idle rfl rfl rfl (fun _ => id) rfl (by rintro _ ⟨⟩) rfl rfl
        fun _ _ => not_awaits) rfl
  | setMode pid | rebuildGet pid affected | rebuildItems pid affected =>
    simp only [EngineCall.exec] at ho
    split at ho
    all_goals
      obtain rfl := andThen_eq ho
      refine put _ _ (h.idle rfl rfl rfl (fun _ => id) rfl (fun k hk => ?_) rfl rfl
        fun _ _ => not_awaits) rfl
      cases hk <;> first | exact ⟨rfl, rfl, rfl⟩ | contradiction
  | attach pid | clearAttach pid =>
    obtain rfl := done_eq ho
    exact put _ [] (h.idle rfl rfl rfl (fun _ => id) rfl (by rintro _ ⟨⟩) rfl rfl
      fun _ _ => not_awaits) rfl
  | registerDisplay ident =>
    obtain ⟨next, hnext, rfl⟩ : ∃ next : List EngineCall,
        (∀ k ∈ next, k.names = none ∧ k.removed = none ∧ k.keyed = none) ∧
          o = { shared := s, next } := by
      simp only [EngineCall.exec] at ho
      repeat' split at ho
      all_goals
        refine ⟨_, fun k hk => ?_, andThen_eq ho⟩
        simp only [List.mem_cons, List.not_mem_nil, or_false] at hk
      · exact hk ▸ ⟨rfl, rfl, rfl⟩
      · obtain rfl | rfl := hk <;> exact ⟨rfl, rfl, rfl⟩
      · exact hk ▸ ⟨rfl, rfl, rfl⟩
    exact put _ _ (h.idle rfl rfl rfl (fun _ => id) rfl hnext rfl rfl
      fun _ _ => not_awaits) rfl
  | insertLegacy iid legacy =>
    simp only [EngineCall.exec] at ho
    split at ho
    · obtain rfl := done_eq ho
      exact put _ [] (h.idle rfl rfl rfl (fun _ => id) rfl (by rintro _ ⟨⟩) rfl rfl
        fun _ _ => not_awaits) rfl
    · rename_i hkey
      obtain rfl := done_eq ho
      exact put _ [] (h.save (hin.resolve_left hkey) rfl
        (fun _ _ => not_awaits) (by rintro _ _ _ ⟨⟩)) rfl
  | addDisplay ident =>
    obtain rfl := andThen_eq ho
    exact put _ [_] h.addDisplay rfl
  | snapshotDisplay d =>
    simp only [EngineCall.exec] at ho
    cases hreg : s.displays.lookup d with
    | some ident =>
      rw [hreg] at ho
      obtain rfl := andThen_eq ho
      refine put _ [_] (h.goOn rfl rfl rfl (fun _ => id) rfl
        (h.toNamed.tail.reads fun k hk => ?_) (by rintro _ ⟨⟩) (by rintro _ _ _ ⟨⟩)
        fun e i _ hown he => ?_) rfl
      · cases List.mem_singleton.1 hk
        exact ⟨d, ident, hreg, rfl, rfl, rfl⟩
      · obtain he | ⟨p, -, he⟩ := he
        · exact .inr (.inr ⟨hown, _, List.mem_cons_self, .inl he⟩)
        · cases he
    | none =>
      rw [hreg] at ho
      obtain rfl := done_eq ho
      refine put _ [] (h.goOn rfl rfl rfl (fun _ => id) rfl h.toNamed.tail
        (by rintro _ ⟨⟩) (by rintro _ _ _ ⟨⟩) fun e i hi _ he => ?_) rfl
      obtain he | ⟨p, -, he⟩ := he
      · cases of_decide_eq_true he
        rw [hreg] at hi
        cases hi
      · cases he
  | emitUpsert d ident =>
    obtain rfl := done_eq ho
    exact h.emit rfl
  | unregisterDisplay d =>
    obtain rfl := andThen_eq ho
    exact put _ [_] h.unregisterDisplay rfl
  | emitRemoved d =>
    obtain rfl := done_eq ho
    exact h.emit rfl
  | restoreAll =>
    obtain rfl := andThen_eq ho
    refine put _ _ (h.goOn rfl rfl rfl (fun _ => id) rfl
      (h.toNamed.tail.reads fun k hk => ?_) (by rintro _ ⟨⟩) (by rintro _ _ _ ⟨⟩)
      fun d ident hd hown _ => ?_) rfl
    · obtain ⟨⟨d, ident⟩, hmem, rfl⟩ := List.mem_map.1 hk
      exact ⟨d, ident, mem_snapshotDisplays.1 hmem, rfl, rfl, rfl⟩
    · refine .inr (.inr ⟨hown, .resolvePid d ident.settingsKey, ?_, .inl (decide_eq_true rfl)⟩)
      exact List.mem_append_left _ (List.mem_map.2 ⟨(d, ident), mem_snapshotDisplays.2 hd, rfl⟩)
  | watch =>
    simp only [EngineCall.exec, receive] at ho
    split at ho
    · obtain rfl := andThen_eq ho
      refine put { s with lagged := false } [_, _]
        (h.idle rfl rfl rfl (fun _ => id) rfl (fun k hk => ?_) rfl rfl
          fun _ _ => not_awaits) rfl
      obtain rfl | hk := List.mem_cons.1 hk
      · exact ⟨rfl, rfl, rfl⟩
      · cases List.mem_singleton.1 hk
        exact ⟨rfl, rfl, rfl⟩
    · split at ho
      · cases ho
      · rename_i d ident events hev
        obtain rfl := andThen_eq ho
        refine h.received hev rfl fun h' => h'.goOn rfl rfl rfl (fun _ => id) rfl
          (h'.toNamed.carry fun k hk => ?_) (by rintro _ ⟨⟩) (by rintro _ _ _ ⟨⟩)
          fun e i _ hnone he => ?_
        · cases List.mem_singleton.1 hk
          exact ⟨.inr rfl, .inr rfl, .inr rfl⟩
        · obtain he | ⟨p, -, he⟩ := he
          · exact .inr (.inr ⟨hnone, _, List.mem_cons_self, .inl he⟩)
          · cases he
      · rename_i d events hev
        obtain rfl := andThen_eq ho
        refine h.received hev rfl fun h' => h'.goOn rfl rfl rfl (fun _ => id) rfl
          (h'.toNamed.carry fun k hk => ?_) (fun e he => ⟨_, List.mem_cons_self, he⟩)
          (by rintro _ _ _ ⟨⟩)
          fun _ _ _ _ he => absurd he not_awaits
        cases List.mem_singleton.1 hk
        exact ⟨.inr rfl, .inr rfl, .inr rfl⟩
      · rename_i events hev
        obtain rfl := andThen_eq ho
        have hsame (k : EngineCall) : k ∈ EngineCall.watch :: s.todo rest ↔
            k ∈ todo { s with events } ([EngineCall.watch] ++ rest) := by
          rw [mem_todo_append, List.mem_cons, List.mem_singleton, todo, todo, hev,
            List.filterMap_cons_none (by rfl)]
        exact (h.congr hsame).frame rfl rfl rfl (fun _ => id) fun _ => rfl
  | resync =>
    obtain rfl := andThen_eq ho
    refine put _ _ (h.goOn rfl rfl rfl (fun _ => id) rfl
      (h.toNamed.tail.reads fun k hk => ?_) (by rintro _ ⟨⟩) (by rintro _ _ _ ⟨⟩)
      fun d ident hd hown _ => ?_) rfl
    · obtain ⟨⟨d, ident⟩, hmem, rfl⟩ := List.mem_map.1 hk
      exact ⟨d, ident, mem_snapshotDisplays.1 hmem, rfl, rfl, rfl⟩
    · refine .inr (.inr ⟨hown, .checkOwned d ident.settingsKey, ?_, .inl (decide_eq_true rfl)⟩)
      exact List.mem_append_left _ (List.mem_map.2 ⟨(d, ident), mem_snapshotDisplays.2 hd, rfl⟩)
  | checkOwned d key =>
    simp only [EngineCall.exec] at ho
    split at ho
    · rename_i hown
      obtain rfl := done_eq ho
      refine put _ [] (h.goOn rfl rfl rfl (fun _ => id) rfl h.toNamed.tail
        (by rintro _ ⟨⟩) (by rintro _ _ _ ⟨⟩) fun e i hi hnone he => ?_) rfl
      obtain he | ⟨p, -, he⟩ := he
      · cases of_decide_eq_true he
        rw [HashMap.containsKey, hnone] at hown
        cases hown
      · cases he
    · obtain rfl := andThen_eq ho
      refine put _ [_] (h.goOn rfl rfl rfl (fun _ => id) rfl
        (h.toNamed.carry fun k hk => ?_) (by rintro _ ⟨⟩) (by rintro _ _ _ ⟨⟩)
        fun e i _ hnone he => ?_) rfl
      · cases List.mem_singleton.1 hk
        exact ⟨.inr rfl, .inr rfl, .inr rfl⟩
      · obtain he | ⟨p, -, he⟩ := he
        · exact .inr (.inr ⟨hnone, _, List.mem_cons_self, .inl he⟩)
        · cases he
  | resolvePid d key =>
    have hkey (i : DisplayIdent) (hi : s.displays.lookup d = some i) : key = i.settingsKey :=
      h.keyed _ List.mem_cons_self (d, key) rfl i hi
    simp only [EngineCall.exec] at ho
    cases hpid : s.resolvePid key with
    | some pid =>
      rw [hpid] at ho
      obtain rfl := andThen_eq ho
      refine put _ [_] (h.goOn rfl rfl rfl (fun _ => id) rfl
        (h.toNamed.tail.plain fun k hk => ?_) (by rintro _ ⟨⟩) (by rintro _ _ _ ⟨⟩)
        fun e i hi hnone he => ?_) rfl
      · cases List.mem_singleton.1 hk
        exact ⟨rfl, rfl, rfl⟩
      · obtain he | ⟨p, -, he⟩ := he
        · cases of_decide_eq_true he
          obtain rfl := hkey i hi
          cases hsaved : s.saved i.settingsKey with
          | none => exact .inl hnone.symm
          | some q =>
            -- what is saved comes before what is attached to every display
            obtain rfl : q = pid := by
              rw [PlaylistEngine.resolvePid, hsaved] at hpid
              exact Option.some_inj.1 hpid
            exact .inr (.inr ⟨hnone, _, List.mem_cons_self, .inr ⟨q, rfl, by simp [restores]⟩⟩)
        · cases he
    | none =>
      rw [hpid] at ho
      obtain rfl := done_eq ho
      refine put _ [] (h.goOn rfl rfl rfl (fun _ => id) rfl h.toNamed.tail
        (by rintro _ ⟨⟩) (by rintro _ _ _ ⟨⟩) fun e i hi hnone he => ?_) rfl
      obtain he | ⟨p, -, he⟩ := he
      · cases of_decide_eq_true he
        obtain rfl := hkey i hi
        exact .inl ((Option.or_eq_none_iff.1 hpid).1.trans hnone.symm)
      · cases he
  | dropDisplay d =>
    obtain rfl := done_eq ho
    refine put _ [] (h.drop rfl (by rintro _ ⟨⟩) (fun _ _ => not_awaits) h.toNamed.tail
      fun ident hident => ?_) rfl
    rw [h.gone _ List.mem_cons_self d rfl] at hident
    cases hident

end Exec

/-! ## The other steps -/

theorem Agreeing.more {ts next : List EngineCall} (h : Agreeing s ts)
    (hnamed : Named s (next ++ ts)) : Agreeing s (next ++ ts) where
  toNamed := hnamed
  owned d pid hd := (h.owned d pid hd).imp_right fun hl => hl.mono fun _ => List.mem_append_right _
  saved d ident hd := (h.saved d ident hd).mono fun _ => List.mem_append_right _

theorem Agreeing.accept {q : EngineRequest} {a : PlaylistEngine × TaskPool.Task EngineCall}
    (h : Agreeing s (s.todo cs)) (hq : s.accept q = some a) :
    a.1 = s ∧ Agreeing s (s.todo (cs ++ a.2.stack)) := by
  have put (ha : a = (s, { stack := q.calls })) (hnamed : Named s (q.calls ++ s.todo cs)) :
      a.1 = s ∧ Agreeing s (s.todo (cs ++ a.2.stack)) := by
    subst ha
    refine ⟨rfl, (h.more hnamed).congr fun k => ?_⟩
    simp only [todo, List.mem_append]
    rw [or_left_comm, or_comm (a := k ∈ q.calls)]
  cases q with
  | unregisterDisplay d =>
    obtain ⟨hd, ha⟩ := Option.ite_none_right_eq_some.1 hq
    refine put (Option.some_inj.1 ha).symm (h.toNamed.append (fun k hk e he => ?_)
      (fun k hk e he => ?_) fun k hk e he => ?_)
    all_goals
      cases List.mem_singleton.1 hk
      cases he
    exact hd
  | playlistDeactivate ids clear =>
    refine put (Option.some_inj.1 hq).symm (h.toNamed.plain fun k hk => ?_)
    cases clear with
    | none =>
      cases List.mem_singleton.1 hk
      exact ⟨rfl, rfl, rfl⟩
    | some pid =>
      obtain rfl | hk := List.mem_cons.1 hk
      · exact ⟨rfl, rfl, rfl⟩
      · cases List.mem_singleton.1 hk
        exact ⟨rfl, rfl, rfl⟩
  | playlistDelete pid =>
    refine put (Option.some_inj.1 hq).symm (h.toNamed.plain fun k hk => ?_)
    obtain rfl | hk := List.mem_cons.1 hk
    · exact ⟨rfl, rfl, rfl⟩
    · cases List.mem_singleton.1 hk
      exact ⟨rfl, rfl, rfl⟩
  | _ =>
    refine put (Option.some_inj.1 hq).symm (h.toNamed.plain fun k hk => ?_)
    cases List.mem_singleton.1 hk
    exact ⟨rfl, rfl, rfl⟩

theorem Agreeing.act {e : EngineSignal} {s' : PlaylistEngine} (h : Agreeing s (s.todo cs))
    (hs : act e s = some s') (he : ∀ n, e ≠ .lag n) : Agreeing s' (s'.todo cs) := by
  cases e with
  | createPlaylist pid entryIds =>
    simp only [PlaylistEngine.act] at hs
    obtain ⟨-, hs⟩ := Option.ite_none_left_eq_some.1 hs
    cases hs
    refine h.frame rfl rfl rfl (fun q hq => ?_) fun _ => rfl
    rw [HashMap.containsKey_insert, hq, Bool.or_true]
  | setEntries entries =>
    cases hs
    exact h.frame rfl rfl rfl (fun _ => id) fun _ => rfl
  | touchPrefs key =>
    obtain ⟨hkey, hs⟩ := Option.ite_none_left_eq_some.1 hs
    cases hs
    refine h.frame rfl rfl rfl (fun _ => id) fun key' => ?_
    rw [PlaylistEngine.saved, PlaylistEngine.saved, HashMap.lookup_insert_eq]
    split
    · rename_i heq
      subst heq
      rw [HashMap.containsKey, Bool.not_eq_true, Option.isSome_eq_false_iff,
        Option.isNone_iff_eq_none] at hkey
      rw [hkey]
      rfl
    · rfl
  | prunePrefs key =>
    obtain ⟨hkey, hs⟩ := Option.ite_none_right_eq_some.1 hs
    cases hs
    refine h.frame rfl rfl rfl (fun _ => id) fun key' => ?_
    rw [PlaylistEngine.saved, PlaylistEngine.saved, HashMap.lookup_erase_eq]
    split
    · rename_i heq
      subst heq
      rw [hkey]
      rfl
    · rfl
  | otherEvent =>
    cases hs
    refine (h.congr fun k => ?_).frame rfl rfl rfl (fun _ => id) fun _ => rfl
    rw [todo, todo, PlaylistEngine.emit, List.filterMap_append,
      List.filterMap_cons_none (by rfl), List.filterMap_nil, List.append_nil]
  | lag n => exact absurd rfl (he n)

/-- Nothing is owned when the watcher starts, and it looks at every display. -/
theorem agreeing_start (h : Fresh s) : Agreeing s (s.todo [.restoreAll, .watch]) := by
  have htodo : s.todo [.restoreAll, .watch] = [.restoreAll, .watch] := by
    rw [todo, h.events]
    rfl
  have hown (d : DisplayId) : s.owned.lookup d = none := by
    rw [h.owned]
    exact HashMap.lookup_empty d
  rw [htodo]
  exact {
    ids d ident hd := h.displays d ((HashMap.mem_keys_iff _ _).2 ⟨ident, hd⟩)
    known k hk e he := by
      simp only [List.mem_cons, List.not_mem_nil, or_false] at hk
      obtain rfl | rfl := hk <;> cases he
    gone k hk e he := by
      simp only [List.mem_cons, List.not_mem_nil, or_false] at hk
      obtain rfl | rfl := hk <;> cases he
    keyed k hk e he := by
      simp only [List.mem_cons, List.not_mem_nil, or_false] at hk
      obtain rfl | rfl := hk <;> cases he
    owned d pid hd := by
      rw [hown] at hd
      cases hd
    saved d _ _ := .inr (.inr ⟨hown d, _, List.mem_cons_self, .inl rfl⟩) }

/-! ## Runs -/

/-- What the step goes by is still so. -/
def StepUpToDate (p : EnginePool) : EngineLabel → Prop
  | .run i x => ∀ c ∈ p.executed (.run i x : EngineLabel),
      p.shared.UpToDate (p.shared.todo (p.remaining (.run i x : EngineLabel))) x c
  | _ => True

/-- The watcher receives every event. -/
def InTurn : EngineLabel → Prop
  | .env (.lag _) => False
  | _ => True

/-- Nothing is left to do: the watcher waits for the next event. -/
structure Finished (p : EnginePool) : Prop where
  calls : ∀ c ∈ calls p.tasks, c = .watch
  events : p.shared.events = []

/-- The displays the engine owns are registered, their playlists exist, and what is saved for a
registered display is the playlist it is owned with. -/
structure Consistent (s : PlaylistEngine) : Prop where
  registered : ∀ d pid, s.owned.lookup d = some pid → s.displays.containsKey d = true
  listed : ∀ d pid, s.owned.lookup d = some pid → s.playlists.containsKey pid = true
  saved : ∀ d ident, s.displays.lookup d = some ident →
    ∀ pid, s.saved ident.settingsKey = some pid ↔ s.owned.lookup d = some pid

theorem Agreeing.consistent {p : EnginePool}
    (h : Agreeing p.shared (p.shared.todo (calls p.tasks))) (hfin : Finished p) :
    p.shared.Consistent := by
  have hwatch : ∀ k ∈ p.shared.todo (calls p.tasks), k = .watch := by
    intro k hk
    rw [todo, hfin.events] at hk
    exact hfin.calls k hk
  have howned (d : DisplayId) (pid : PlaylistId) (hd : p.shared.owned.lookup d = some pid) :
      p.shared.displays.containsKey d = true ∧ p.shared.playlists.containsKey pid = true := by
    refine (h.owned d pid hd).resolve_right ?_
    rintro ⟨k, hk, hl⟩
    cases hwatch k hk
    cases hl
  refine ⟨fun d pid hd => (howned d pid hd).1, fun d pid hd => (howned d pid hd).2,
    fun d ident hd pid => ?_⟩
  obtain heq | ⟨k, hk, hl⟩ | ⟨-, k, hk, hl⟩ := h.saved d ident hd
  · rw [heq]
  · cases hwatch k hk
    cases hl
  · cases hwatch k hk
    obtain hl | ⟨q, -, hl⟩ := hl <;> cases hl

theorem assigned_iff_owned {ls : List EngineLabel} {p : EnginePool} (h₀ : Fresh s)
    (hr : Run s ls p) (hturn : ∀ l ∈ ls, InTurn l)
    (hdate : Transition.Along semantics.step StepUpToDate (start s) ls) (hfin : Finished p) :
    p.shared.Consistent := by
  have hstep := steady.preserves (I := fun s cs => Agreeing s (s.todo cs))
    (C := fun p l => InTurn l ∧ StepUpToDate p l)
    (fun hperm h => h.congr fun k => by
      rw [todo, todo, List.mem_append, List.mem_append, hperm.mem_iff])
    (fun p l i x c o hl hC hc h ho => by
      subst hl
      have hspawn : o.spawn = [] := by rw [exec_eq ho]
      rw [hspawn, calls_nil, List.append_nil]
      exact Agreeing.exec (h.congr fun k => mem_todo_cons.trans List.mem_cons.symm) ho
        (hC.2 c hc))
    (fun p q s t _ h hq => by
      obtain ⟨heq, h'⟩ := h.accept hq
      obtain rfl : s = p.shared := heq
      exact h')
    fun p e s hC h hs => h.act hs fun n hn => by
      subst hn
      exact hC.1
  have hsteady : ∀ t ∈ (start s).tasks, t.Steady := by
    intro t ht
    rw [List.mem_singleton.1 ht]
    exact ⟨rfl, rfl⟩
  exact (Transition.invariant_of_run hstep ⟨hsteady, agreeing_start h₀⟩
    ((Transition.along_of_forall hturn (start s)).and hdate) hr).2.consistent hfin

instance (p : EnginePool) : (l : EngineLabel) → Decidable (StepUpToDate p l)
  | .run i x => inferInstanceAs (Decidable (∀ c ∈ p.executed (.run i x : EngineLabel), _))
  | .wake _ | .drop _ | .start _ | .env _ => .isTrue trivial

instance : DecidablePred InTurn
  | .env (.lag _) => .isFalse not_false
  | .env (.createPlaylist _ _) | .env (.setEntries _) | .env (.touchPrefs _)
  | .env (.prunePrefs _) | .env .otherEvent => .isTrue trivial
  | .run _ _ | .wake _ | .drop _ | .start _ => .isTrue trivial

/-- A display and a playlist. -/
def oneDisplay : PlaylistEngine where
  playlists := (∅ : HashMap PlaylistId (List ℕ)).insert 7 [3]
  entries := [3]
  nextDisplayId := 1
  displays := (∅ : HashMap DisplayId DisplayIdent).insert 1 { name := "eDP-1" }

theorem fresh_oneDisplay : oneDisplay.Fresh := ⟨rfl, rfl, rfl, by decide⟩

/-- The playlist is activated on the display, and the watcher learns of a new layout. -/
def activates : List EngineLabel :=
  [.run 0 .ok, .run 0 .ok, .start (.playlistActivate [1] 7 false)] ++
    List.replicate 8 (.run 1 .ok) ++ [.start (.updateDisplay 1), .run 2 .ok, .run 2 .ok] ++
      List.replicate 2 (.run 0 .ok)

theorem assigned_iff_owned_activated : ∃ p : EnginePool, Run oneDisplay activates p ∧
    Finished p ∧ p.shared.Consistent ∧ p.shared.owned.lookup 1 = some 7 ∧
      p.shared.saved "eDP-1" = some 7 := by
  have hrun : Run oneDisplay activates (Transition.reached semantics.step (start oneDisplay)
      activates (by decide)) := Transition.run_reached _ _
  have hfin : Finished (Transition.reached semantics.step (start oneDisplay) activates
      (by decide)) := ⟨by decide, by decide⟩
  exact ⟨_, hrun, hfin, assigned_iff_owned fresh_oneDisplay hrun (by decide)
    (by decide) hfin, by decide, by decide⟩

/-- The display is unplugged while the first wallpaper of the playlist is being applied. -/
def unplugs : List EngineLabel :=
  [.run 0 .ok, .run 0 .ok, .start (.playlistActivate [1] 7 false)] ++
    List.replicate 4 (.run 1 .ok) ++ [.start (.unregisterDisplay 1), .run 2 .ok, .run 2 .ok] ++
      List.replicate 2 (.run 0 .ok) ++ List.replicate 3 (.run 1 .ok)

theorem not_assigned_iff_owned : ¬∀ (s : PlaylistEngine) (ls : List EngineLabel)
    (p : EnginePool), s.Fresh → Run s ls p → (∀ l ∈ ls, InTurn l) → Finished p →
      p.shared.Consistent := by
  intro h
  have hrun : Run oneDisplay unplugs (Transition.reached semantics.step (start oneDisplay)
      unplugs (by decide)) := Transition.run_reached _ _
  have hfin : Finished (Transition.reached semantics.step (start oneDisplay) unplugs
      (by decide)) := ⟨by decide, by decide⟩
  have howned : (Transition.reached semantics.step (start oneDisplay) unplugs
      (by decide)).shared.owned.lookup 1 = some 7 := by decide
  have hgone : (Transition.reached semantics.step (start oneDisplay) unplugs
      (by decide)).shared.displays.containsKey 1 = false := by decide
  have hcons := h _ _ _ fresh_oneDisplay hrun (by decide) hfin
  cases (hcons.registered 1 7 howned).symm.trans hgone

end PlaylistEngine

end Waywallen
