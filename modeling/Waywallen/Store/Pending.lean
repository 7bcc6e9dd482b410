import Waywallen.Store.Fresh

/-!
# Whether a pass leaves work for the next one

The background task makes a pass every few minutes, over the rows that two queries find. A pass that
finds the files of all items and can write what it reads should leave nothing for these queries, so
that the next one has nothing to do. A time that a row shows is not compared with the clock, and a
file that is read is not probed in the same pass, unless its row was to be probed before.
-/

namespace Waywallen

/-! ## What the queries find -/

namespace Item

variable (i : Item)

/-- A picture or video with an extension that can be probed. -/
def isProbable (probableExts : List String) : Bool :=
  (i.ty = "image" || i.ty = "video") && probableExts.any i.hasExtension

/-- A column of the probe is null, or older than the file. -/
def probeDue : Bool :=
  i.width.isNone || i.height.isNone || i.probedAt.isNone || i.modifiedAt.isNone ||
    match i.probedAt, i.modifiedAt with
    | some probed, some modified => probed < modified
    | _, _ => false

theorem needsProbe_eq (exts : List String) :
    i.needsProbe exts = (i.isProbable exts && i.probeDue) :=
  rfl

variable {i}

theorem needsStat_eq_false_iff :
    i.needsStat = false ↔ i.size.isSome = true ∧ i.statAt.isSome = true := by
  rw [needsStat, Bool.or_eq_false_iff, Option.isNone_eq_false_iff, Option.isNone_eq_false_iff]

theorem probeDue_eq_false_iff : i.probeDue = false ↔
    (i.width.isSome = true ∧ i.height.isSome = true) ∧
      ∃ p ∈ i.probedAt, ∃ m ∈ i.modifiedAt, m ≤ p := by
  unfold probeDue
  cases i.width <;> cases i.height <;> cases i.probedAt <;> cases i.modifiedAt <;> simp

end Item

/-- Neither query finds a row. -/
structure Db.Idle (db : Db) : Prop where
  stat : db.withLibraryPath (db.items.rows.filter Item.needsStat) = []
  probe : db.withLibraryPath (db.items.rows.filter fun i => i.needsProbe probableExts) = []

section

variable {o : Outside} {g : WorkOrder} {disk : Disk} {s s' : Session} {stats : ProbeStats}
  {db : Db} {p : Item → Bool}

theorem Db.withLibraryPath_eq_nil_iff :
    db.withLibraryPath (db.items.rows.filter p) = [] ↔ ∀ i ∈ db.items, p i = false := by
  constructor
  · intro h i hi
    by_contra hp
    obtain ⟨path, hmem, -⟩ := Db.exists_withLibraryPath hi (eq_true_of_ne_false hp)
    rw [h] at hmem
    cases hmem
  · intro h
    refine List.eq_nil_iff_forall_not_mem.2 fun r hr => ?_
    obtain ⟨hi, hp, -⟩ := Db.mem_withLibraryPath.1 hr
    rw [h r.1 hi] at hp
    cases hp

theorem Db.idle_iff : db.Idle ↔
    ∀ i ∈ db.items, i.needsStat = false ∧ i.needsProbe probableExts = false := by
  constructor
  · exact fun h i hi =>
      ⟨Db.withLibraryPath_eq_nil_iff.1 h.stat i hi, Db.withLibraryPath_eq_nil_iff.1 h.probe i hi⟩
  · exact fun h => ⟨Db.withLibraryPath_eq_nil_iff.2 fun i hi => (h i hi).1,
      Db.withLibraryPath_eq_nil_iff.2 fun i hi => (h i hi).2⟩

/-- A pass over an idle database does nothing. -/
theorem runPending_of_idle (hidle : s.db.Idle) (h : runPending o g disk s = .ok stats s') :
    stats = {} ∧ s'.db = s.db := by
  have hwork : g.order (passWork s.db) = [] := by
    refine List.eq_nil_iff_forall_not_mem.2 fun w hw => ?_
    obtain ⟨k, hk⟩ := mem_order.1 hw
    rw [passWork, hidle.stat, hidle.probe, mergeWork, List.foldl_nil, List.foldl_nil,
      HashMap.lookup_empty] at hk
    cases hk
  have hdrain := drain_of_runPending h
  rw [hwork] at hdrain
  obtain ⟨rfl, rfl⟩ := EStateM.Result.ok.inj hdrain
  exact ⟨rfl, rfl⟩

end

/-! ## The columns that a write fills -/

/-- What the writes `stats`, and of dimensions to the items `probed`, have filled in the row. -/
structure Item.FilledBy (stats : List (ℕ × FileStat)) (probed : List ℕ) (i j : Item) : Prop where
  id : j.id = i.id
  stat : (∃ stat, (i.id, stat) ∈ stats) ∧ j.statAt.isSome = true ∨
    (∀ stat, (i.id, stat) ∉ stats) ∧ j.statAt = i.statAt
  dims : i.id ∈ probed ∧ j.width.isSome = true ∧ j.height.isSome = true ∨
    i.id ∉ probed ∧ j.width = i.width ∧ j.height = i.height

def Db.FilledBy (db : Db) (stats : List (ℕ × FileStat)) (probed : List ℕ) (db' : Db) : Prop :=
  ∀ j ∈ db'.items, ∃ i ∈ db.items, i.FilledBy stats probed j

section

variable {o : Outside} {stats : List (ℕ × FileStat)} {probed : List ℕ} {db db' : Db} {i j : Item}
  {id : ℕ} {stat : FileStat} {found : MediaMeta} {now : Int}

theorem Item.FilledBy.refl (i : Item) : i.FilledBy [] [] i where
  id := rfl
  stat := .inr ⟨fun _ => List.not_mem_nil, rfl⟩
  dims := .inr ⟨List.not_mem_nil, rfl, rfl⟩

theorem Item.FilledBy.updateStat (h : i.FilledBy stats probed j) :
    i.FilledBy (stats ++ [(i.id, stat)]) probed (j.updateStat stat now) where
  id := h.id
  stat := .inl ⟨⟨stat, by simp⟩, rfl⟩
  dims := h.dims

theorem Item.isSome_updateMedia (i : Item) (found : MediaMeta) (now : Int) :
    (i.updateMedia found now).width.isSome = true ∧
      (i.updateMedia found now).height.isSome = true := by
  rw [updateMedia]
  dsimp only
  split
  · exact ⟨rfl, rfl⟩
  · -- nothing is written only when the columns show these values
    rename_i h
    obtain ⟨hwidth, hheight⟩ := not_or.1 h
    rw [← not_not.1 hwidth, ← not_not.1 hheight]
    exact ⟨rfl, rfl⟩

theorem Item.FilledBy.updateMedia (h : i.FilledBy stats probed j) :
    i.FilledBy stats (probed ++ [i.id]) (j.updateMedia found now) where
  id := h.id
  stat := h.stat
  dims := .inl ⟨by simp, j.isSome_updateMedia found now⟩

theorem Item.FilledBy.otherStat (h : i.FilledBy stats probed j) (hid : i.id ≠ id) :
    i.FilledBy (stats ++ [(id, stat)]) probed j :=
  ⟨h.id, by simpa [hid] using h.stat, h.dims⟩

theorem Item.FilledBy.otherMedia (h : i.FilledBy stats probed j) (hid : i.id ≠ id) :
    i.FilledBy stats (probed ++ [id]) j :=
  ⟨h.id, h.stat, by simpa [hid] using h.dims⟩

theorem Db.FilledBy.updateItem {stats' : List (ℕ × FileStat)} {probed' : List ℕ}
    {f : Item → Item} {hid : ∀ i, (f i).id = i.id}
    {hkey : ∀ i, Item.schema.key (f i) = Item.schema.key i}
    {hplugin : ∀ i, (f i).pluginId = i.pluginId} (h : db.FilledBy stats probed db')
    (hrow : ∀ i j : Item, i.FilledBy stats probed j → i.id = id → i.FilledBy stats' probed' (f j))
    (hother : ∀ i j : Item, i.FilledBy stats probed j → i.id ≠ id → i.FilledBy stats' probed' j) :
    db.FilledBy stats' probed' (db'.updateItem id f hid hkey hplugin) := by
  intro j hj
  obtain ⟨k, hk, rfl⟩ := Table.mem_map.1 hj
  obtain ⟨i, hi, hik⟩ := h k hk
  refine ⟨i, hi, ?_⟩
  by_cases heq : i.id = id
  · have hkid : k.id = id := hik.id.trans heq
    dsimp only
    rw [if_pos hkid]
    exact hrow i k hik heq
  · have hkid : k.id ≠ id := fun hkid => heq (hik.id.symm.trans hkid)
    dsimp only
    rw [if_neg hkid]
    exact hother i k hik heq

theorem Db.FilledBy.keptByWrites (db : Db) : KeptByWrites o db.FilledBy where
  stat h := h.updateItem (fun _ _ hj heq => heq ▸ hj.updateStat) fun _ _ hj hne => hj.otherStat hne
  media h :=
    h.updateItem (fun _ _ hj heq => heq ▸ hj.updateMedia) fun _ _ hj hne => hj.otherMedia hne

end

section

variable {o : Outside} {g : WorkOrder} {disk : Disk} {s s' : Session} {stats : ProbeStats}
  {i j : Item} {stat : FileStat} {file : Option String}

theorem filledBy_of_runPending (h : runPending o g disk s = .ok stats s')
    (herr : stats.writeErrors = 0) :
    s.db.FilledBy (statsOf (writesOf disk (g.order (passWork s.db))))
      (probedOf (writesOf disk (g.order (passWork s.db)))) s'.db := by
  have hdrain : Ensures (Session.Keeps s.db.FilledBy [] [] {})
      (drain o disk (g.order (passWork s.db)) [] {}) _ :=
    ensures_drain (Db.FilledBy.keptByWrites s.db) _ []
  have hrun := hdrain ⟨s.db, s.asked + 2, s.upserted⟩ fun _ i hi => ⟨i, hi, .refl i⟩
  rw [drain_of_runPending h] at hrun
  exact hrun.2 herr

/-- What a pass that finds the file of the row `i` has filled in it. -/
structure Item.Filled (i j : Item) : Prop where
  stat : i.needsStat = true → j.statAt.isSome = true
  noStat : i.needsStat = false → j.statAt = i.statAt
  probe : i.needsProbe probableExts = true → j.width.isSome = true ∧ j.height.isSome = true
  noProbe : i.needsProbe probableExts = false → j.width = i.width ∧ j.height = i.height

theorem Item.FilledBy.filled {db : Db} (hi : i ∈ db.items)
    (hfile : (db.filePath i).bind disk.statFile = some stat)
    (h : i.FilledBy (statsOf (writesOf disk (g.order (passWork db))))
      (probedOf (writesOf disk (g.order (passWork db)))) j) : i.Filled j where
  stat hneeds := by
    rcases h.stat with ⟨-, hj⟩ | ⟨hnone, -⟩
    · exact hj
    · exact absurd ((mem_statsOf_passWork hi).2 ⟨hneeds, hfile⟩) (hnone stat)
  noStat hneeds := by
    rcases h.stat with ⟨⟨stat, hmem⟩, -⟩ | ⟨-, hj⟩
    · rw [((mem_statsOf_passWork hi).1 hmem).1] at hneeds
      cases hneeds
    · exact hj
  probe hneeds := by
    rcases h.dims with ⟨-, hj⟩ | ⟨hnone, -⟩
    · exact hj
    · exact absurd ((mem_probedOf_passWork hi).2 hneeds) hnone
  noProbe hneeds := by
    rcases h.dims with ⟨hmem, -⟩ | ⟨-, hj⟩
    · rw [(mem_probedOf_passWork hi).1 hmem] at hneeds
      cases hneeds
    · exact hj

/-! ## A row after a pass -/

/-- The row is settled by a pass at the time `now` that finds the file as `stat`: a row that is only
probed shows a time that is not later, and one that is only read was probed after its file
changed. -/
structure Item.Settles (i : Item) (stat : FileStat) (now : Int) : Prop where
  probe : i.needsProbe probableExts = true → i.needsStat = false → ∃ m ∈ i.modifiedAt, m ≤ now
  stat : i.isProbable probableExts = true → i.needsProbe probableExts = false →
    i.needsStat = true → ∃ p ∈ i.probedAt, stat.modifiedAt ≤ p

theorem Item.Settles.mono {now now' : Int} (h : i.Settles stat now) (hle : now ≤ now') :
    i.Settles stat now' :=
  ⟨fun hprobe hneeds => (h.probe hprobe hneeds).imp fun _ hm => ⟨hm.1, hm.2.trans hle⟩, h.stat⟩

/-- A row whose file was found is not to be read again. -/
theorem Item.Passed.needsStat_eq_false (h : i.Passed o disk file j) (hfilled : i.Filled j)
    (hfile : file.bind disk.statFile = some stat) : j.needsStat = false := by
  rw [Item.needsStat_eq_false_iff]
  cases hneeds : i.needsStat with
  | true =>
    rw [(h.stat stat hneeds hfile).1]
    exact ⟨rfl, hfilled.stat hneeds⟩
  | false =>
    rw [(h.noStat hneeds).1, hfilled.noStat hneeds]
    exact Item.needsStat_eq_false_iff.1 hneeds

theorem Item.Passed.isProbable (h : i.Passed o disk file j) :
    j.isProbable probableExts = i.isProbable probableExts := by
  have hext : j.hasExtension = i.hasExtension := by
    funext ext
    rw [Item.hasExtension, Item.hasExtension, h.same.path]
  rw [Item.isProbable, Item.isProbable, h.ty, hext]

theorem Item.Passed.needsProbe_iff_of_probed (h : i.Passed o disk file j) (hfilled : i.Filled j)
    (hfile : file.bind disk.statFile = some stat) (hclock : ∀ n, stat.modifiedAt ≤ o.now n)
    (hprobe : i.needsProbe probableExts = true) :
    ∃ n, j.needsProbe probableExts = false ↔ i.Settles stat (o.now n) := by
  obtain ⟨n, hprobed⟩ := h.probe hprobe
  have hprobable : i.isProbable probableExts = true :=
    (Bool.and_eq_true_iff.1 ((i.needsProbe_eq _).symm.trans hprobe)).1
  refine ⟨n, ?_⟩
  rw [Item.needsProbe_eq, h.isProbable, hprobable, Bool.true_and, Item.probeDue_eq_false_iff,
    and_iff_right (hfilled.probe hprobe), hprobed]
  cases hneeds : i.needsStat with
  | true =>
    -- the file is read, and the probe is later than its last change
    rw [(h.stat stat hneeds hfile).2]
    exact iff_of_true ⟨_, rfl, _, rfl, hclock n⟩
      ⟨fun _ hneeds' => absurd (hneeds'.symm.trans hneeds) Bool.false_ne_true,
        fun _ hprobe' => absurd (hprobe'.symm.trans hprobe) Bool.false_ne_true⟩
  | false =>
    rw [(h.noStat hneeds).2]
    constructor
    · rintro ⟨p, hp, m, hm, hle⟩
      obtain rfl := Option.some_inj.1 hp
      exact ⟨fun _ _ => ⟨m, hm, hle⟩,
        fun _ _ hneeds' => absurd (hneeds.symm.trans hneeds') Bool.false_ne_true⟩
    · intro hsettles
      obtain ⟨m, hm, hle⟩ := hsettles.probe hprobe hneeds
      exact ⟨_, rfl, m, hm, hle⟩

theorem Item.Passed.needsProbe_iff_of_not_probed (h : i.Passed o disk file j)
    (hfilled : i.Filled j) (hfile : file.bind disk.statFile = some stat)
    (hprobe : i.needsProbe probableExts = false) (now : Int) :
    j.needsProbe probableExts = false ↔ i.Settles stat now := by
  have hvacuous : i.needsProbe probableExts = true → i.needsStat = false →
      ∃ m ∈ i.modifiedAt, m ≤ now :=
    fun hprobe' => absurd (hprobe.symm.trans hprobe') Bool.false_ne_true
  rw [Item.needsProbe_eq, h.isProbable]
  cases hprobable : i.isProbable probableExts with
  | false =>
    exact iff_of_true (Bool.false_and _)
      ⟨hvacuous, fun hprobable' => absurd (hprobable.symm.trans hprobable') Bool.false_ne_true⟩
  | true =>
    have hdue : i.probeDue = false := by rwa [Item.needsProbe_eq, hprobable] at hprobe
    obtain ⟨hdims, p, hp, m, hm, hle⟩ := Item.probeDue_eq_false_iff.1 hdue
    obtain ⟨hwidth, hheight⟩ := hfilled.noProbe hprobe
    rw [Bool.true_and, Item.probeDue_eq_false_iff, hwidth, hheight, and_iff_right hdims,
      h.noProbe hprobe]
    cases hneeds : i.needsStat with
    | true =>
      rw [(h.stat stat hneeds hfile).2]
      constructor
      · rintro ⟨p, hp, m, hm, hle⟩
        obtain rfl := Option.some_inj.1 hm
        exact ⟨hvacuous, fun _ _ _ => ⟨p, hp, hle⟩⟩
      · intro hsettles
        obtain ⟨p, hp, hle⟩ := hsettles.stat hprobable hprobe hneeds
        exact ⟨p, hp, _, rfl, hle⟩
    | false =>
      rw [(h.noStat hneeds).2]
      exact iff_of_true ⟨p, hp, m, hm, hle⟩
        ⟨hvacuous, fun _ _ hneeds' => absurd (hneeds.symm.trans hneeds') Bool.false_ne_true⟩

/-- A row is not to be probed again exactly if it was settled at the time of its write. -/
theorem Item.Passed.exists_needsProbe_iff (h : i.Passed o disk file j) (hfilled : i.Filled j)
    (hfile : file.bind disk.statFile = some stat) (hclock : ∀ n, stat.modifiedAt ≤ o.now n) :
    ∃ n, j.needsProbe probableExts = false ↔ i.Settles stat (o.now n) := by
  cases hprobe : i.needsProbe probableExts with
  | true => exact h.needsProbe_iff_of_probed hfilled hfile hclock hprobe
  | false => exact ⟨0, h.needsProbe_iff_of_not_probed hfilled hfile hprobe _⟩

end

/-! ## Passes that nothing disturbs -/

/-- What holds of the result and of the session of a computation that always returns. -/
abbrev Returns {α : Type} (P : Session → Prop) (m : SessionM α) (Q : α → Session → Prop) : Prop :=
  Evolves (fun _ _ => True) False P m Q

/-- The items with the given ids are there. -/
def Session.HasItems (ids : List ℕ) (s : Session) : Prop :=
  ∀ id ∈ ids, ∃ i ∈ s.db.items, i.id = id

/-- The items are there, and no write was counted as failed. -/
def Session.Sound (ids : List ℕ) (d : ProbeStats) (s : Session) : Prop :=
  s.HasItems ids ∧ d.writeErrors = 0

section

variable {α : Type} {o : Outside} {context : String} {ids : List ℕ} {id : ℕ} {d : ProbeStats}
  {disk : Disk}

theorem returns_call (hfails : ∀ n, o.fails n = false) {f : Db → Option (α × Db)}
    {P : Session → Prop} {Q : α → Session → Prop}
    (h : ∀ s, P s → ∃ a db, f s.db = some (a, db) ∧ Q a ⟨db, s.asked + 1, s.upserted⟩) :
    Returns P (call o context f) Q := by
  intro s hs
  obtain ⟨a, db, hf, hq⟩ := h s hs
  have hcall : call o context f s = .ok a ⟨db, s.asked + 1, s.upserted⟩ := by
    rw [call, hfails, if_neg Bool.false_ne_true, hf]
  rw [hcall]
  exact ⟨trivial, hq⟩

theorem returns_select (hfails : ∀ n, o.fails n = false) {f : Db → α} {P : Session → Prop}
    {Q : α → Session → Prop} (h : ∀ s, P s → Q (f s.db) ⟨s.db, s.asked + 1, s.upserted⟩) :
    Returns P (select o context f) Q :=
  returns_call hfails fun s hs => ⟨_, _, rfl, h s hs⟩

theorem Session.HasItems.updateItem {s : Session} {f : Item → Item} {hid : ∀ i, (f i).id = i.id}
    {hkey : ∀ i, Item.schema.key (f i) = Item.schema.key i}
    {hplugin : ∀ i, (f i).pluginId = i.pluginId} (h : s.HasItems ids) (n : ℕ) :
    Session.HasItems ids ⟨s.db.updateItem id f hid hkey hplugin, n, s.upserted⟩ := by
  intro k hk
  obtain ⟨i, hi, rfl⟩ := h k hk
  refine ⟨_, Table.mem_map.2 ⟨i, hi, rfl⟩, ?_⟩
  dsimp only
  split
  · exact hid i
  · rfl

/-- An item that is there is found, and a write changes it. -/
theorem returns_updateFound {β : Type} (hfails : ∀ n, o.fails n = false) (hid : id ∈ ids)
    {none : SessionM β} {write : Item → SessionM β}
    (hwrite : ∀ i, Returns (Session.HasItems ids) (write i) fun _ => Session.HasItems ids) :
    Returns (Session.HasItems ids)
      (findItem o id >>= fun found => match found with
        | .none => none
        | some i => write i) fun _ => Session.HasItems ids := by
  refine .bind (Q := fun found s => found.isSome = true ∧ s.HasItems ids)
    (returns_select hfails fun s hs => ⟨?_, hs⟩) fun found => ?_
  · obtain ⟨i, hi, rfl⟩ := hs id hid
    exact List.find?_isSome.2 ⟨i, hi, decide_eq_true rfl⟩
  · cases found with
    | none => exact fun s hs => absurd hs.1 Bool.false_ne_true
    | some i => exact (hwrite i).mono (fun _ hs => hs.2) fun _ _ hs => hs

theorem returns_updateItemStat (hfails : ∀ n, o.fails n = false) (hid : id ∈ ids)
    (stat : FileStat) : Returns (Session.HasItems ids) (updateItemStat o id stat)
      fun _ => Session.HasItems ids := by
  refine returns_updateFound hfails hid fun i => ?_
  refine .bind (Q := fun _ => Session.HasItems ids) (fun s hs => ⟨trivial, hs⟩) fun now => ?_
  exact .bind (Q := fun _ => Session.HasItems ids)
    (returns_call hfails fun s hs => ⟨_, _, rfl, hs.updateItem _⟩) fun _ => .pure fun _ hs => hs

theorem returns_updateItemMedia (hfails : ∀ n, o.fails n = false) (hid : id ∈ ids)
    (found : MediaMeta) : Returns (Session.HasItems ids) (updateItemMedia o id found)
      fun _ => Session.HasItems ids := by
  refine returns_updateFound hfails hid fun i => ?_
  refine .bind (Q := fun _ => Session.HasItems ids) (fun s hs => ⟨trivial, hs⟩) fun now => ?_
  exact returns_call hfails fun s hs => ⟨_, _, rfl, hs.updateItem _⟩

/-- A write counts no failed ones. -/
theorem returns_writeStat (hfails : ∀ n, o.fails n = false) (hid : id ∈ ids)
    (stat : Option FileStat) :
    Returns (Session.Sound ids d) (writeStat o id stat d) (Session.Sound ids) := by
  cases stat with
  | none => exact .pure fun _ hs => hs
  | some stat =>
    exact .bind ((returns_updateItemStat hfails hid stat).frame fun _ _ _ hd => hd) fun changed =>
      .pure fun _ hs => hs

theorem returns_writeMedia (hfails : ∀ n, o.fails n = false) (hid : id ∈ ids)
    (media : Option MediaMeta) :
    Returns (Session.Sound ids d) (writeMedia o id media d) (Session.Sound ids) := by
  cases media with
  | none => exact .pure fun _ hs => hs
  | some found =>
    exact .bind ((returns_updateItemMedia hfails hid found).frame fun _ _ _ hd => hd) fun _ =>
      .pure fun _ hs => hs

theorem returns_writePending (hfails : ∀ n, o.fails n = false) (ws : List PendingWrite)
    (hws : ∀ pw ∈ ws, pw.id ∈ ids) :
    Returns (Session.Sound ids d) (writePending o ws d) (Session.Sound ids) := by
  induction ws generalizing d with
  | nil => exact .pure fun _ hs => hs
  | cons pw ws ih =>
    have hid := hws pw List.mem_cons_self
    exact .bind (returns_writeStat hfails hid pw.stat) fun _ =>
      .bind (returns_writeMedia hfails hid pw.media) fun _ =>
        ih fun pw hpw => hws pw (List.mem_cons_of_mem _ hpw)

theorem returns_transaction (hfails : ∀ n, o.fails n = false) {m : SessionM ProbeStats}
    (h : Returns (Session.Sound ids d) m (Session.Sound ids)) :
    Returns (Session.Sound ids d) (transaction o m) (Session.Sound ids) :=
  evolves_rollback <|
    .bind (Q := fun _ => Session.Sound ids d) (returns_select hfails fun _ hs => hs) fun _ =>
      .bind h fun d' =>
        .bind (Q := fun _ => Session.Sound ids d') (returns_select hfails fun _ hs => hs) fun _ =>
          .pure fun _ hs => hs

theorem returns_flushPending (hfails : ∀ n, o.fails n = false) (ws : List PendingWrite)
    (hws : ∀ pw ∈ ws, pw.id ∈ ids) :
    Returns (Session.Sound ids d) (flushPending o ws d) (Session.Sound ids) := by
  rw [flushPending]
  split
  · exact .pure fun _ hs => hs
  · have hdelta := returns_transaction hfails (returns_writePending hfails ws hws (d := d))
    exact .tryCatch_of_returns hdelta

theorem returns_drain (hfails : ∀ n, o.fails n = false) (work : List WorkItem)
    (pending : List PendingWrite) (hwork : ∀ pw ∈ writesOf disk work, pw.id ∈ ids)
    (hpending : ∀ pw ∈ pending, pw.id ∈ ids) :
    Returns (Session.Sound ids d) (drain o disk work pending d) (Session.Sound ids) := by
  induction work generalizing pending d with
  | nil => exact returns_flushPending hfails pending hpending
  | cons w work ih =>
    rw [writesOf, List.filterMap_cons] at hwork
    rw [drain]
    cases hw : w.write disk with
    | none =>
      rw [hw] at hwork
      exact (ih pending hwork hpending).mono (fun _ hs => hs) fun _ _ hs => hs
    | some pw =>
      rw [hw] at hwork
      have hrest : ∀ pw ∈ writesOf disk work, pw.id ∈ ids :=
        fun pw hpw => hwork pw (List.mem_cons_of_mem _ hpw)
      have hpending : ∀ pw' ∈ pending ++ [pw], pw'.id ∈ ids := fun pw' hpw =>
        (List.mem_append.1 hpw).elim (hpending pw') fun hpw =>
          List.mem_singleton.1 hpw ▸ hwork pw List.mem_cons_self
      dsimp only
      split
      · refine .bind ((returns_flushPending hfails (pending ++ [pw]) hpending).mono
          (fun _ hs => hs) fun _ _ hs => hs) fun d => ?_
        exact ih [] hrest fun pw hpw => absurd hpw List.not_mem_nil
      · exact (ih (pending ++ [pw]) hrest hpending).mono (fun _ hs => hs) fun _ _ hs => hs

end

/-- What is written is of items that are there. -/
theorem mem_items_of_write {g : WorkOrder} {disk : Disk} {db : Db} {pw : PendingWrite}
    (hpw : pw ∈ writesOf disk (g.order (passWork db))) : pw.id ∈ db.items.rows.map Item.id := by
  have hmerged : Merged _ _ (passWork db) := merged_mergeWork _ _
  obtain ⟨w, hw, hwrite⟩ := List.mem_filterMap.1 hpw
  obtain ⟨k, hk⟩ := mem_order.1 hw
  rw [WorkItem.write] at hwrite
  split at hwrite
  · cases hwrite
  · rename_i hread
    obtain rfl := Option.some_inj.1 hwrite
    rw [WorkItem.statResult, WorkItem.mediaResult] at hread
    by_cases hstat : w.doStat = true
    · obtain ⟨hi, -⟩ := Db.mem_withLibraryPath.1 (hmerged.row k w hk hstat)
      exact List.mem_map_of_mem hi
    · have hprobe : w.doProbe = true := by
        by_contra hprobe
        exact hread ⟨if_neg hstat, if_neg hprobe⟩
      obtain ⟨r, hr, hid⟩ := (hmerged.probe k).1 ⟨w, hk, hprobe⟩
      obtain ⟨hi, -⟩ := Db.mem_withLibraryPath.1 hr
      exact List.mem_map.2 ⟨r.1, hi, hid.trans (hmerged.id k w hk).symm⟩

/-- If no call fails, a pass returns and has written all that it read. -/
theorem exists_runPending_ok {o : Outside} {g : WorkOrder} {disk : Disk}
    (hfails : ∀ n, o.fails n = false) (s : Session) :
    ∃ stats s', runPending o g disk s = .ok stats s' ∧ stats.writeErrors = 0 := by
  have hlist {α : Type} (context : String) (f : Db → α) (s : Session) :
      select o context f s = .ok (f s.db) ⟨s.db, s.asked + 1, s.upserted⟩ := by
    rw [select, call, hfails, if_neg Bool.false_ne_true]
  have hrun : runPending o g disk s =
      drain o disk (g.order (passWork s.db)) [] {} ⟨s.db, s.asked + 2, s.upserted⟩ := by
    rw [runPending, bind_apply, listItemsNeedingStat, hlist]
    dsimp only
    rw [bind_apply, listItemsNeedingProbe, hlist]
    rfl
  have hitems : ∀ pw ∈ writesOf disk (g.order (passWork s.db)),
      pw.id ∈ s.db.items.rows.map Item.id := fun _ hpw => mem_items_of_write hpw
  have hdrain := returns_drain hfails (g.order (passWork s.db)) [] (d := {}) hitems
    fun _ hpw => absurd hpw List.not_mem_nil
  have hdrain := hdrain ⟨s.db, s.asked + 2, s.upserted⟩ ⟨fun _ hid => List.mem_map.1 hid, rfl⟩
  rw [← hrun] at hdrain
  cases h : runPending o g disk s with
  | ok stats s' =>
    rw [h] at hdrain
    exact ⟨stats, s', rfl, hdrain.2.2⟩
  | error e s' =>
    rw [h] at hdrain
    exact hdrain.2.elim

/-! ## Passes that leave nothing -/

/-- The files of all items are there, and none has changed after `now`. -/
def FilesExist (db : Db) (disk : Disk) (now : Int) : Prop :=
  ∀ i ∈ db.items.rows, ∃ path ∈ db.filePath i, ∃ stat ∈ disk.statFile path, stat.modifiedAt ≤ now

/-- If the pass returns and all its writes succeed, neither query finds a row after it. -/
def ProbePass.LeavesIdle (p : ProbePass) (db : Db) (disk : Disk) : Prop :=
  ∀ stats s, runPending p.outside p.order disk (.new db) = .ok stats s → stats.writeErrors = 0 →
    s.db.Idle

def Db.Settles (db : Db) (disk : Disk) (now : Int) : Prop :=
  ∀ i ∈ db.items.rows, ∀ path ∈ db.filePath i, ∀ stat ∈ disk.statFile path, i.Settles stat now

instance (db : Db) (disk : Disk) (now : Int) : Decidable (FilesExist db disk now) :=
  inferInstanceAs (Decidable (∀ i ∈ db.items.rows, _))

instance (i : Item) (stat : FileStat) (now : Int) : Decidable (i.Settles stat now) :=
  decidable_of_iff
    ((i.needsProbe probableExts = true → i.needsStat = false → ∃ m ∈ i.modifiedAt, m ≤ now) ∧
      (i.isProbable probableExts = true → i.needsProbe probableExts = false →
        i.needsStat = true → ∃ p ∈ i.probedAt, stat.modifiedAt ≤ p))
    ⟨fun h => ⟨h.1, h.2⟩, fun h => ⟨h.1, h.2⟩⟩

instance (db : Db) (disk : Disk) (now : Int) : Decidable (db.Settles disk now) :=
  inferInstanceAs (Decidable (∀ i ∈ db.items.rows, _))

/-- A pass all of whose clock readings are the same, and in which no call fails. -/
def ProbePass.atOnce (now : Int) : ProbePass where
  outside := ⟨fun _ => now, fun _ => false, String.toLower⟩
  order := (FileState.passAt 0).order
  clock := fun _ _ _ => Int.le_refl now

section

variable {p : ProbePass} {db : Db} {disk : Disk} {stats : ProbeStats} {s : Session} {i j : Item}
  {now : Int}

/-- A row is done with by the pass exactly if it was settled at the time of its write. -/
theorem ProbePass.exists_done_iff
    (hrun : runPending p.outside p.order disk (.new db) = .ok stats s)
    (herr : stats.writeErrors = 0) (hi : i ∈ db.items) (hj : j ∈ s.db.items)
    (h : i.Passed p.outside disk (db.filePath i) j) {path : String} (hpath : path ∈ db.filePath i)
    {stat : FileStat} (hstat : stat ∈ disk.statFile path)
    (hclock : stat.modifiedAt ≤ p.outside.now 0) :
    ∃ n, (j.needsStat = false ∧ j.needsProbe probableExts = false) ↔
      i.Settles stat (p.outside.now n) := by
  have hfile : (db.filePath i).bind disk.statFile = some stat :=
    Option.bind_eq_some_iff.2 ⟨path, hpath, hstat⟩
  have hfilled : i.Filled j := by
    obtain ⟨k, hk, hkj⟩ := filledBy_of_runPending hrun herr j hj
    obtain rfl : k = i := Table.id_injective hk hi (hkj.id.symm.trans h.same.id)
    exact hkj.filled hi hfile
  obtain ⟨n, hn⟩ := h.exists_needsProbe_iff hfilled hfile fun n =>
    hclock.trans (p.clock (Nat.zero_le n))
  exact ⟨n, by rw [and_iff_right (h.needsStat_eq_false hfilled hfile), hn]⟩

theorem ProbePass.leavesIdle_of_settles (hfiles : FilesExist db disk (p.outside.now 0))
    (h : db.Settles disk (p.outside.now 0)) : p.LeavesIdle db disk := by
  intro stats s hrun herr
  obtain ⟨-, -, hback⟩ := passed_of_runPending hrun herr
  refine Db.idle_iff.2 fun j hj => ?_
  obtain ⟨i, hi, hij⟩ := hback j hj
  obtain ⟨path, hpath, stat, hstat, hle⟩ := hfiles i hi
  obtain ⟨n, hn⟩ := ProbePass.exists_done_iff hrun herr hi hj hij hpath hstat hle
  exact hn.2 ((h i hi path hpath stat hstat).mono (p.clock (Nat.zero_le n)))

theorem ProbePass.settles_of_leavesIdle (hfiles : FilesExist db disk now)
    (h : (ProbePass.atOnce now).LeavesIdle db disk) : db.Settles disk now := by
  intro i hi path hpath stat hstat
  let p := ProbePass.atOnce now
  have hpass : ∃ stats s, runPending p.outside p.order disk (.new db) = .ok stats s ∧
      stats.writeErrors = 0 := exists_runPending_ok (fun _ => rfl) (.new db)
  obtain ⟨stats, s, hrun, herr⟩ := hpass
  obtain ⟨-, hforth, -⟩ := passed_of_runPending hrun herr
  obtain ⟨j, hj, hij⟩ := hforth i hi
  have hle : stat.modifiedAt ≤ now := by
    obtain ⟨path', hpath', stat', hstat', hle⟩ := hfiles i hi
    obtain rfl := Option.some_inj.1 (hpath.symm.trans hpath')
    obtain rfl := Option.some_inj.1 (hstat.symm.trans hstat')
    exact hle
  obtain ⟨n, hn⟩ := ProbePass.exists_done_iff hrun herr hi hj hij hpath hstat hle
  exact hn.1 (Db.idle_iff.1 (h stats s hrun herr) j hj)

/-- Every pass that starts at `now` leaves nothing to do exactly if it finds settled rows. -/
theorem leavesIdle_iff (hfiles : FilesExist db disk now) :
    (∀ p : ProbePass, p.outside.now 0 = now → p.LeavesIdle db disk) ↔ db.Settles disk now := by
  constructor
  · exact fun h => ProbePass.settles_of_leavesIdle hfiles (h (.atOnce now) rfl)
  · rintro h p rfl
    exact p.leavesIdle_of_settles hfiles h

end

/-- A picture has just been found. -/
def foundPicture : Db :=
  (refreshed (pictures 1000 (.returned [picture "a.png"])) imagePlugin .empty).db

/-- Its file is there; the probe finds no dimensions. -/
def foundDisk : Disk :=
  ⟨fun path => if path = "/w/a.png" then some ⟨5, 500⟩ else none, fun _ => ⟨none, none⟩⟩

theorem leavesIdle_foundPicture : (FileState.passAt 2000).LeavesIdle foundPicture foundDisk :=
  (leavesIdle_iff (by decide +kernel)).2 (by decide +kernel) _ rfl

/-- The picture was read when its file showed a time in the future. -/
def futurePicture : Db :=
  (foundPicture.updateItemStat 1 ⟨5, 9000⟩ 1500).updateItemMedia 1 ⟨some 10, some 20⟩ 1500

/-- It is probed in every pass until that time has come. -/
theorem not_leavesIdle : ¬∀ (db : Db) (disk : Disk) (p : ProbePass),
    FilesExist db disk (p.outside.now 0) → p.LeavesIdle db disk := by
  intro h
  have hfiles : FilesExist futurePicture foundDisk 2000 := by decide +kernel
  exact absurd (ProbePass.settles_of_leavesIdle hfiles (h _ _ (.atOnce 2000) hfiles))
    (by decide +kernel)

end Waywallen
