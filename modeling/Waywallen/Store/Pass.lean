import Waywallen.Store.Probe
import Waywallen.Store.Rows

/-!
# What a pass writes

A batch that fails is counted. A pass that counted none has written to each row what it found for
that row, and nothing else.
-/

namespace Waywallen

/-- The path of the file of an item. -/
def Db.filePath (db : Db) (i : Item) : Option String :=
  (db.libraries.rows.find? fun l => l.id = i.libraryId).map fun l => joinTrimmed l.path i.path

/-- What the writes of `stats`, and of dimensions to the items `probed`, have made of the row. -/
structure Item.Read (o : Outside) (stats : List (ℕ × FileStat)) (probed : List ℕ) (i j : Item) :
    Prop where
  same : j.SameRow i
  ty : j.ty = i.ty
  stat : (∃ stat, (i.id, stat) ∈ stats ∧ j.size = some stat.size ∧
      j.modifiedAt = some stat.modifiedAt) ∨
    (∀ stat, (i.id, stat) ∉ stats) ∧ j.size = i.size ∧ j.modifiedAt = i.modifiedAt
  probe : i.id ∈ probed ∧ (∃ n, j.probedAt = some (o.now n)) ∨
    i.id ∉ probed ∧ j.probedAt = i.probedAt

structure Db.Read (o : Outside) (stats : List (ℕ × FileStat)) (probed : List ℕ) (db db' : Db) :
    Prop where
  libraries : db'.libraries = db.libraries
  forth : ∀ i ∈ db.items, ∃ j ∈ db'.items, i.Read o stats probed j
  back : ∀ j ∈ db'.items, ∃ i ∈ db.items, i.Read o stats probed j

section

variable {o : Outside} {stats : List (ℕ × FileStat)} {probed : List ℕ} {db db' : Db} {i j : Item}
  {id n : ℕ} {stat : FileStat} {found : MediaMeta} {now : Int}

theorem Item.updateStat_size : (i.updateStat stat now).size = some stat.size := by
  rw [updateStat]
  dsimp only
  split
  · rfl
  · rename_i h
    exact (not_not.1 fun hne => h (.inl hne)).symm

theorem Item.updateStat_modifiedAt : (i.updateStat stat now).modifiedAt = some stat.modifiedAt := by
  rw [updateStat]
  dsimp only
  split
  · rfl
  · rename_i h
    exact (not_not.1 fun hne => h (.inr hne)).symm

theorem Item.Read.refl (i : Item) : i.Read o [] [] i where
  same := .refl i
  ty := rfl
  stat := .inr ⟨fun _ => List.not_mem_nil, rfl, rfl⟩
  probe := .inr ⟨List.not_mem_nil, rfl⟩

theorem Item.Read.updateStat (h : i.Read o stats probed j) :
    i.Read o (stats ++ [(i.id, stat)]) probed (j.updateStat stat now) where
  same := ⟨h.same.id, h.same.libraryId, h.same.path, h.same.userPropertyOverrides,
    h.same.wallpaperLayoutOverride⟩
  ty := h.ty
  stat := .inl ⟨stat, by simp, Item.updateStat_size, Item.updateStat_modifiedAt⟩
  probe := h.probe

theorem Item.Read.updateMedia (h : i.Read o stats probed j) :
    i.Read o stats (probed ++ [i.id]) (j.updateMedia found (o.now n)) where
  same := ⟨h.same.id, h.same.libraryId, h.same.path, h.same.userPropertyOverrides,
    h.same.wallpaperLayoutOverride⟩
  ty := h.ty
  stat := h.stat
  probe := .inl ⟨by simp, n, rfl⟩

/-- A write to another row. -/
theorem Item.Read.otherStat (h : i.Read o stats probed j) (hid : i.id ≠ id) :
    i.Read o (stats ++ [(id, stat)]) probed j :=
  ⟨h.same, h.ty, by simpa [hid] using h.stat, h.probe⟩

theorem Item.Read.otherMedia (h : i.Read o stats probed j) (hid : i.id ≠ id) :
    i.Read o stats (probed ++ [id]) j :=
  ⟨h.same, h.ty, h.stat, by simpa [hid] using h.probe⟩

theorem Db.Read.refl (db : Db) : db.Read o [] [] db :=
  ⟨rfl, fun i hi => ⟨i, hi, .refl i⟩, fun i hi => ⟨i, hi, .refl i⟩⟩

/-- A write changes one row. -/
theorem Db.Read.updateItem {stats' : List (ℕ × FileStat)} {probed' : List ℕ} {f : Item → Item}
    {hid : ∀ i, (f i).id = i.id} {hkey : ∀ i, Item.schema.key (f i) = Item.schema.key i}
    {hplugin : ∀ i, (f i).pluginId = i.pluginId} (h : db.Read o stats probed db')
    (hrow : ∀ i j : Item, i.Read o stats probed j → i.id = id → i.Read o stats' probed' (f j))
    (hother : ∀ i j : Item, i.Read o stats probed j → i.id ≠ id → i.Read o stats' probed' j) :
    db.Read o stats' probed' (db'.updateItem id f hid hkey hplugin) := by
  have hread (i j : Item) (hj : i.Read o stats probed j) :
      i.Read o stats' probed' (if j.id = id then f j else j) := by
    by_cases heq : i.id = id
    · rw [if_pos (hj.same.id.trans heq)]
      exact hrow i j hj heq
    · rw [if_neg fun hjid => heq (hj.same.id.symm.trans hjid)]
      exact hother i j hj heq
  refine ⟨h.libraries, fun i hi => ?_, fun j hj => ?_⟩
  · obtain ⟨j, hj, hij⟩ := h.forth i hi
    exact ⟨_, Table.mem_map.2 ⟨j, hj, rfl⟩, hread i j hij⟩
  · obtain ⟨k, hk, rfl⟩ := Table.mem_map.1 hj
    obtain ⟨i, hi, hik⟩ := h.back k hk
    exact ⟨i, hi, hread i k hik⟩

theorem Db.Read.updateItemStat (h : db.Read o stats probed db') :
    db.Read o (stats ++ [(id, stat)]) probed (db'.updateItemStat id stat now) :=
  h.updateItem (fun _ _ hj heq => heq ▸ hj.updateStat) fun _ _ hj hne => hj.otherStat hne

theorem Db.Read.updateItemMedia (h : db.Read o stats probed db') :
    db.Read o stats (probed ++ [id]) (db'.updateItemMedia id found (o.now n)) :=
  h.updateItem (fun _ _ hj heq => heq ▸ hj.updateMedia) fun _ _ hj hne => hj.otherMedia hne

end

/-! ## The writes of a pass -/

def statsOf (ws : List PendingWrite) : List (ℕ × FileStat) :=
  ws.flatMap fun w => w.stat.toList.map (w.id, ·)

def probedOf (ws : List PendingWrite) : List ℕ :=
  (ws.filter fun w => w.media.isSome).map PendingWrite.id

def writesOf (disk : Disk) (work : List WorkItem) : List PendingWrite :=
  work.filterMap fun w => w.write disk

/-- The relation `I` between what was written and the database is kept by a write. -/
structure KeptByWrites (o : Outside) (I : List (ℕ × FileStat) → List ℕ → Db → Prop) : Prop where
  stat : ∀ {stats probed db id stat now}, I stats probed db →
    I (stats ++ [(id, stat)]) probed (db.updateItemStat id stat now)
  media : ∀ {stats probed db id found n}, I stats probed db →
    I stats (probed ++ [id]) (db.updateItemMedia id found (o.now n))

/-- If no batch has failed, `I` holds of the writes and of the database. -/
def Session.Keeps (I : List (ℕ × FileStat) → List ℕ → Db → Prop) (stats : List (ℕ × FileStat))
    (probed : List ℕ) (d : ProbeStats) (s : Session) : Prop :=
  d.writeErrors = 0 → I stats probed s.db

/-- If no batch has failed, the writes are in the database. -/
def Session.Written (o : Outside) (db : Db) (stats : List (ℕ × FileStat)) (probed : List ℕ)
    (d : ProbeStats) (s : Session) : Prop :=
  d.writeErrors = 0 → db.Read o stats probed s.db

theorem Db.Read.keptByWrites (db : Db) {o : Outside} : KeptByWrites o (db.Read o) :=
  ⟨fun h => h.updateItemStat, fun h => h.updateItemMedia⟩

section

variable {o : Outside} {I : List (ℕ × FileStat) → List ℕ → Db → Prop}
  {stats : List (ℕ × FileStat)} {probed : List ℕ} {d : ProbeStats} {id : ℕ} {disk : Disk}

theorem statsOf_append (ws ws' : List PendingWrite) :
    statsOf (ws ++ ws') = statsOf ws ++ statsOf ws' :=
  List.flatMap_append

theorem probedOf_append (ws ws' : List PendingWrite) :
    probedOf (ws ++ ws') = probedOf ws ++ probedOf ws' := by
  rw [probedOf, List.filter_append, List.map_append]
  rfl

theorem ensures_updateItemStat (hI : KeptByWrites o I) {stat : FileStat} :
    Ensures (Session.Keeps I stats probed d) (updateItemStat o id stat)
      fun _ => Session.Keeps I (stats ++ [(id, stat)]) probed d := by
  refine .bind (Q := fun _ => Session.Keeps I stats probed d)
    (ensures_select fun _ hs => hs) fun found => ?_
  cases found with
  | none => exact ensures_throw _
  | some existing =>
    refine .bind (Q := fun _ => Session.Keeps I stats probed d)
      (ensures_nowMs fun _ hs => hs) fun now => ?_
    refine .bind (Q := fun _ => Session.Keeps I (stats ++ [(id, stat)]) probed d)
      (ensures_execute fun s db' hs hf herr => ?_) fun _ => .pure fun _ hs => hs
    obtain rfl := Option.some_inj.1 hf
    exact hI.stat (hs herr)

theorem ensures_updateItemMedia (hI : KeptByWrites o I) {found : MediaMeta} :
    Ensures (Session.Keeps I stats probed d) (updateItemMedia o id found)
      fun _ => Session.Keeps I stats (probed ++ [id]) d := by
  refine .bind (Q := fun _ => Session.Keeps I stats probed d)
    (ensures_select fun _ hs => hs) fun existing => ?_
  cases existing with
  | none => exact ensures_throw _
  | some existing =>
    refine .bind (Q := fun now s => Session.Keeps I stats probed d s ∧ ∃ n, now = o.now n)
      (ensures_nowMs fun s hs => ⟨hs, s.asked, rfl⟩) fun now => ?_
    refine ensures_execute fun s db' hs hf herr => ?_
    obtain ⟨hs, n, rfl⟩ := hs
    obtain rfl := Option.some_inj.1 hf
    exact hI.media (hs herr)

theorem ensures_writeStat (hI : KeptByWrites o I) (stat : Option FileStat) :
    Ensures (Session.Keeps I stats probed d) (writeStat o id stat d)
      fun d' => Session.Keeps I (stats ++ stat.toList.map (id, ·)) probed d' := by
  cases stat with
  | none =>
    rw [Option.toList_none, List.map_nil, List.append_nil]
    exact .pure fun _ hs => hs
  | some stat => exact .bind (ensures_updateItemStat hI) fun changed => .pure fun _ hs => hs

theorem ensures_writeMedia (hI : KeptByWrites o I) (media : Option MediaMeta) :
    Ensures (Session.Keeps I stats probed d) (writeMedia o id media d)
      fun d' => Session.Keeps I stats (probed ++ media.toList.map fun _ => id) d' := by
  cases media with
  | none =>
    rw [Option.toList_none, List.map_nil, List.append_nil]
    exact .pure fun _ hs => hs
  | some found => exact .bind (ensures_updateItemMedia hI) fun _ => .pure fun _ hs => hs

theorem ensures_writePending (hI : KeptByWrites o I) (ws : List PendingWrite) :
    Ensures (Session.Keeps I stats probed d) (writePending o ws d)
      fun d' => Session.Keeps I (stats ++ statsOf ws) (probed ++ probedOf ws) d' := by
  induction ws generalizing stats probed d with
  | nil =>
    rw [statsOf, List.flatMap_nil, probedOf, List.filter_nil, List.map_nil, List.append_nil,
      List.append_nil]
    exact .pure fun _ hs => hs
  | cons w ws ih =>
    obtain ⟨id, stat, media⟩ := w
    have hstats : statsOf (⟨id, stat, media⟩ :: ws) = stat.toList.map (id, ·) ++ statsOf ws :=
      List.flatMap_cons
    have hprobed : probedOf (⟨id, stat, media⟩ :: ws) =
        (media.toList.map fun _ => id) ++ probedOf ws := by
      cases media <;> rfl
    rw [hstats, hprobed, ← List.append_assoc, ← List.append_assoc]
    exact .bind (ensures_writeStat hI stat) fun _ => .bind (ensures_writeMedia hI media) fun _ => ih

theorem evolves_rollback {α : Type} {E : Prop} {whole : SessionM α} {P : Session → Prop}
    {Q : α → Session → Prop} (h : Evolves (fun _ _ => True) E P whole Q) :
    Evolves (fun _ _ => True) E P (fun s => match whole s with
      | .ok a s' => .ok a s'
      | .error e s' => .error e { s' with db := s.db }) Q := by
  intro s hs
  have hrun := h s hs
  dsimp only
  cases hw : whole s with
  | ok a s' =>
    rw [hw] at hrun
    exact hrun
  | error e s' =>
    rw [hw] at hrun
    exact hrun

/-- A transaction does what its calls do. -/
theorem ensures_transaction {α : Type} {m : SessionM α} {P : Session → Prop}
    {Q : α → Session → Prop} (hP : ∀ s, P s → P { s with asked := s.asked + 1 })
    (hQ : ∀ a s, Q a s → Q a { s with asked := s.asked + 1 }) (h : Ensures P m Q) :
    Ensures P (transaction o m) Q :=
  evolves_rollback <|
    .bind (ensures_select fun s hs => hP s hs) fun _ => .bind h fun a =>
      .bind (ensures_select fun s hs => hQ a s hs) fun _ => .pure fun _ hs => hs

theorem ensures_flushPending (hI : KeptByWrites o I) (ws : List PendingWrite) :
    Ensures (Session.Keeps I stats probed d) (flushPending o ws d)
      fun d' => Session.Keeps I (stats ++ statsOf ws) (probed ++ probedOf ws) d' := by
  rw [flushPending]
  split
  · rename_i hws
    subst hws
    rw [statsOf, List.flatMap_nil, probedOf, List.filter_nil, List.map_nil, List.append_nil,
      List.append_nil]
    exact .pure fun _ hs => hs
  · rename_i hws
    refine .tryCatch
      (ensures_transaction (fun _ hs => hs) (fun _ _ hs => hs) (ensures_writePending hI ws))
      (fun _ _ _ _ => trivial) fun e => .pure (P := fun _ => True) fun s _ herr => ?_
    -- a batch that fails was not empty
    have hlen := List.length_pos_iff.2 hws
    dsimp only at herr
    omega

theorem ensures_drain (hI : KeptByWrites o I) (work : List WorkItem) (pending : List PendingWrite) :
    Ensures (Session.Keeps I stats probed d) (drain o disk work pending d)
      fun d' => Session.Keeps I (stats ++ statsOf (pending ++ writesOf disk work))
        (probed ++ probedOf (pending ++ writesOf disk work)) d' := by
  induction work generalizing stats probed d pending with
  | nil =>
    rw [writesOf, List.filterMap_nil, List.append_nil]
    exact ensures_flushPending hI pending
  | cons w work ih =>
    have hcons : writesOf disk (w :: work) = (w.write disk).toList ++ writesOf disk work := by
      rw [writesOf, List.filterMap_cons]
      cases w.write disk <;> rfl
    rw [drain, hcons]
    cases w.write disk with
    | none =>
      exact .mono (ih pending) (fun _ hs => hs) fun _ _ hs => hs
    | some pw =>
      dsimp only
      rw [Option.toList_some, ← List.append_assoc]
      split
      · refine .bind (.mono (ensures_flushPending hI (pending ++ [pw])) (fun _ hs => hs)
          fun _ _ hs => hs) fun d => ?_
        rw [statsOf_append (pending ++ [pw]), probedOf_append (pending ++ [pw]),
          ← List.append_assoc, ← List.append_assoc]
        exact ih []
      · exact .mono (ih (pending ++ [pw])) (fun _ hs => hs) fun _ _ hs => hs

end

/-! ## What a pass works on -/

/-- The work for the rows `statRows`, whose files are to be read, and `probeRows`, whose dimensions
are. -/
structure Merged (statRows probeRows : List (Item × String)) (work : HashMap ℕ WorkItem) :
    Prop where
  id : ∀ k w, work.lookup k = some w → w.item.id = k
  row : ∀ k w, work.lookup k = some w → w.doStat = true → (w.item, w.libPath) ∈ statRows
  stat : ∀ r ∈ statRows, ∃ w, work.lookup r.1.id = some w ∧ w.doStat = true
  probe : ∀ k, (∃ w, work.lookup k = some w ∧ w.doProbe = true) ↔ ∃ r ∈ probeRows, r.1.id = k

section

variable {statRows probeRows : List (Item × String)} {work : HashMap ℕ WorkItem}
  {r : Item × String} {k : ℕ} {stat : FileStat} {disk : Disk} {l : List WorkItem}

/-- The work under one id is set. -/
theorem Merged.insert {statRows' probeRows' : List (Item × String)} {new : WorkItem}
    (h : Merged statRows probeRows work) (hid : new.item.id = k)
    (hrow : new.doStat = true → (new.item, new.libPath) ∈ statRows')
    (hrows : ∀ r ∈ statRows, r ∈ statRows')
    (hstat : ∀ r ∈ statRows', r.1.id = k ∧ new.doStat = true ∨ r.1.id ≠ k ∧ r ∈ statRows)
    (hprobe : new.doProbe = true ↔ ∃ r ∈ probeRows', r.1.id = k)
    (hprobes : ∀ j ≠ k, (∃ r ∈ probeRows', r.1.id = j) ↔ ∃ r ∈ probeRows, r.1.id = j) :
    Merged statRows' probeRows' (work.insert k new) := by
  refine ⟨fun j w hw => ?_, fun j w hw hdo => ?_, fun r hr => ?_, fun j => ?_⟩
  · rw [HashMap.lookup_insert_eq] at hw
    split at hw
    · rename_i hj
      obtain rfl := Option.some_inj.1 hw
      exact hid.trans hj.symm
    · exact h.id j w hw
  · rw [HashMap.lookup_insert_eq] at hw
    split at hw
    · obtain rfl := Option.some_inj.1 hw
      exact hrow hdo
    · exact hrows _ (h.row j w hw hdo)
  · rw [HashMap.lookup_insert_eq]
    rcases hstat r hr with ⟨hk, hdo⟩ | ⟨hk, hr⟩
    · exact ⟨new, if_pos hk, hdo⟩
    · rw [if_neg hk]
      exact h.stat r hr
  · rw [HashMap.lookup_insert_eq]
    by_cases hj : j = k
    · subst hj
      rw [if_pos rfl, ← hprobe]
      exact ⟨fun h => h.elim fun w hw => Option.some_inj.1 hw.1 ▸ hw.2, fun hdo => ⟨new, rfl, hdo⟩⟩
    · rw [if_neg hj, hprobes j hj]
      exact h.probe j

theorem Merged.insertStat (h : Merged statRows [] work) :
    Merged (statRows ++ [r]) [] (work.insert r.1.id ⟨r.1, r.2, true, false⟩) := by
  refine h.insert rfl (fun _ => List.mem_append_right _ List.mem_cons_self)
    (fun _ => List.mem_append_left _) (fun r' hr' => ?_) (by simp) fun _ _ => .rfl
  by_cases hid : r'.1.id = r.1.id
  · exact .inl ⟨hid, rfl⟩
  · refine .inr ⟨hid, (List.mem_append.1 hr').resolve_right fun hr' => hid ?_⟩
    rw [List.mem_singleton.1 hr']

/-- An item that is there is marked, one that is not is added. -/
theorem Merged.insertProbe (h : Merged statRows probeRows work) :
    Merged statRows (probeRows ++ [r]) (match work.lookup r.1.id with
      | some w => work.insert r.1.id { w with doProbe := true }
      | none => work.insert r.1.id ⟨r.1, r.2, false, true⟩) := by
  have hprobe : ∃ r' ∈ probeRows ++ [r], r'.1.id = r.1.id :=
    ⟨r, List.mem_append_right _ List.mem_cons_self, rfl⟩
  have hprobes (j : ℕ) (hj : j ≠ r.1.id) :
      (∃ r' ∈ probeRows ++ [r], r'.1.id = j) ↔ ∃ r' ∈ probeRows, r'.1.id = j := by
    refine exists_congr fun r' => and_congr_left fun hr' => ?_
    rw [List.mem_append, List.mem_singleton, or_iff_left]
    rintro rfl
    exact hj hr'.symm
  split
  · rename_i w hw
    refine h.insert (h.id _ w hw) (h.row _ w hw) (fun _ hr => hr) (fun r' hr' => ?_)
      (iff_of_true rfl hprobe) hprobes
    obtain ⟨w', hw', hdo⟩ := h.stat r' hr'
    by_cases hid : r'.1.id = r.1.id
    · rw [hid, hw, Option.some_inj] at hw'
      exact .inl ⟨hid, hw' ▸ hdo⟩
    · exact .inr ⟨hid, hr'⟩
  · rename_i hnone
    refine h.insert rfl (fun hdo => absurd hdo Bool.false_ne_true) (fun _ hr => hr)
      (fun r' hr' => .inr ⟨fun hid => ?_, hr'⟩) (iff_of_true rfl hprobe) hprobes
    obtain ⟨w', hw', -⟩ := h.stat r' hr'
    rw [hid, hnone] at hw'
    cases hw'

theorem merged_mergeWork (statRows probeRows : List (Item × String)) :
    Merged statRows probeRows (mergeWork statRows probeRows) := by
  have hstat (rows done : List (Item × String)) (work : HashMap ℕ WorkItem)
      (h : Merged done [] work) : Merged (done ++ rows) []
        (rows.foldl (fun work r => work.insert r.1.id ⟨r.1, r.2, true, false⟩) work) := by
    induction rows generalizing done work with
    | nil => rwa [List.append_nil]
    | cons r rows ih =>
      rw [List.append_cons]
      exact ih _ _ h.insertStat
  have hprobe (rows done : List (Item × String)) (work : HashMap ℕ WorkItem)
      (h : Merged statRows done work) : Merged statRows (done ++ rows)
        (rows.foldl (fun work r =>
          match work.lookup r.1.id with
          | some w => work.insert r.1.id { w with doProbe := true }
          | none => work.insert r.1.id ⟨r.1, r.2, false, true⟩) work) := by
    induction rows generalizing done work with
    | nil => rwa [List.append_nil]
    | cons r rows ih =>
      rw [List.append_cons]
      exact ih _ _ h.insertProbe
  refine hprobe probeRows [] _ (hstat statRows [] ∅ ⟨fun k w hw => ?_, fun k w hw => ?_, ?_, ?_⟩)
  · rw [HashMap.lookup_empty] at hw
    cases hw
  · rw [HashMap.lookup_empty] at hw
    cases hw
  · exact fun r hr => absurd hr List.not_mem_nil
  · exact fun k => iff_of_false (by simp) (by simp)

theorem mem_statsOf_writesOf : (k, stat) ∈ statsOf (writesOf disk l) ↔
    ∃ w ∈ l, w.item.id = k ∧ w.statResult disk = some stat := by
  rw [statsOf, List.mem_flatMap]
  constructor
  · rintro ⟨pw, hpw, hmem⟩
    obtain ⟨w, hw, hwrite⟩ := List.mem_filterMap.1 hpw
    rw [WorkItem.write] at hwrite
    split at hwrite
    · cases hwrite
    · obtain rfl := Option.some_inj.1 hwrite
      obtain ⟨stat', hstat', heq⟩ := List.mem_map.1 hmem
      obtain ⟨rfl, rfl⟩ := Prod.mk.inj heq
      exact ⟨w, hw, rfl, Option.mem_toList.1 hstat'⟩
  · rintro ⟨w, hw, rfl, hstat⟩
    refine ⟨_, List.mem_filterMap.2 ⟨w, hw, if_neg fun h => ?_⟩, ?_⟩
    · rw [hstat] at h
      cases h.1
    · exact List.mem_map.2 ⟨stat, Option.mem_toList.2 hstat, rfl⟩

theorem mem_probedOf_writesOf : k ∈ probedOf (writesOf disk l) ↔
    ∃ w ∈ l, w.item.id = k ∧ w.doProbe = true := by
  rw [probedOf, List.mem_map]
  constructor
  · rintro ⟨pw, hpw, rfl⟩
    obtain ⟨hpw, hmedia⟩ := List.mem_filter.1 hpw
    obtain ⟨w, hw, hwrite⟩ := List.mem_filterMap.1 hpw
    rw [WorkItem.write] at hwrite
    split at hwrite
    · cases hwrite
    · obtain rfl := Option.some_inj.1 hwrite
      refine ⟨w, hw, rfl, ?_⟩
      by_contra hprobe
      rw [WorkItem.mediaResult, if_neg hprobe] at hmedia
      cases hmedia
  · rintro ⟨w, hw, rfl, hprobe⟩
    have hmedia : w.mediaResult disk = some (disk.probeMedia w.abs) := if_pos hprobe
    refine ⟨⟨_, _, _⟩, List.mem_filter.2 ⟨List.mem_filterMap.2 ⟨w, hw, if_neg fun h => ?_⟩, ?_⟩,
      rfl⟩
    · rw [hmedia] at h
      cases h.2
    · rw [hmedia]
      rfl

end

/-! ## A pass on a row -/

/-- What a pass works on. -/
def passWork (db : Db) : HashMap ℕ WorkItem :=
  mergeWork (db.withLibraryPath (db.items.rows.filter Item.needsStat))
    (db.withLibraryPath (db.items.rows.filter fun i => i.needsProbe probableExts))

/-- What a pass makes of the row `i`. -/
structure Item.Passed (o : Outside) (disk : Disk) (file : Option String) (i j : Item) : Prop where
  same : j.SameRow i
  ty : j.ty = i.ty
  stat : ∀ stat, i.needsStat = true → file.bind disk.statFile = some stat →
    j.size = some stat.size ∧ j.modifiedAt = some stat.modifiedAt
  noStat : i.needsStat = false → j.size = i.size ∧ j.modifiedAt = i.modifiedAt
  probe : i.needsProbe probableExts = true → ∃ n, j.probedAt = some (o.now n)
  noProbe : i.needsProbe probableExts = false → j.probedAt = i.probedAt

section

variable {o : Outside} {g : WorkOrder} {disk : Disk} {s s' : Session} {stats : ProbeStats}
  {db db' : Db} {i j : Item} {p : Item → Bool} {path : String}

theorem Db.mem_withLibraryPath : (i, path) ∈ db.withLibraryPath (db.items.rows.filter p) ↔
    i ∈ db.items ∧ p i = true ∧
      ∃ l, db.libraries.rows.find? (fun l => l.id = i.libraryId) = some l ∧ l.path = path := by
  rw [withLibraryPath, List.mem_filterMap]
  constructor
  · rintro ⟨i', hi, heq⟩
    obtain ⟨l, hl, heq⟩ := Option.map_eq_some_iff.1 heq
    obtain ⟨rfl, rfl⟩ := Prod.mk.inj heq
    exact ⟨(List.mem_filter.1 hi).1, (List.mem_filter.1 hi).2, l, hl, rfl⟩
  · rintro ⟨hi, hp, l, hl, rfl⟩
    exact ⟨i, List.mem_filter.2 ⟨hi, hp⟩, Option.map_eq_some_iff.2 ⟨l, hl, rfl⟩⟩

/-- The library of an item is found. -/
theorem Db.exists_withLibraryPath (hi : i ∈ db.items) (hp : p i = true) :
    ∃ path, (i, path) ∈ db.withLibraryPath (db.items.rows.filter p) ∧
      db.filePath i = some (joinTrimmed path i.path) := by
  obtain ⟨l, hl, hid⟩ := db.item_library i hi
  have hfind := Table.find?_id hl
  have hfind : db.libraries.rows.find? (fun l => l.id = i.libraryId) = some l := by
    rw [← hid]
    exact hfind
  exact ⟨l.path, mem_withLibraryPath.2 ⟨hi, hp, l, hfind, rfl⟩, by rw [filePath, hfind]; rfl⟩

theorem mem_order {work : HashMap ℕ WorkItem} {w : WorkItem} :
    w ∈ g.order work ↔ ∃ k, work.lookup k = some w := by
  rw [(g.perm work).mem_iff, HashMap.mem_values_iff]

/-- The files that are read are those of the items that need it. -/
theorem mem_statsOf_passWork {stat : FileStat} (hi : i ∈ db.items) :
    (i.id, stat) ∈ statsOf (writesOf disk (g.order (passWork db))) ↔
      i.needsStat = true ∧ (db.filePath i).bind disk.statFile = some stat := by
  have hmerged : Merged _ _ (passWork db) := merged_mergeWork _ _
  have hwork {k : ℕ} {w : WorkItem} (hw : (passWork db).lookup k = some w) (hk : k = i.id)
      (hdo : w.doStat = true) : i.needsStat = true ∧ db.filePath i = some w.abs := by
    obtain ⟨hmem, hneeds, l, hl, hpath⟩ := Db.mem_withLibraryPath.1 (hmerged.row k w hw hdo)
    have hitem : w.item = i := Table.id_injective hmem hi ((hmerged.id k w hw).trans hk)
    rw [hitem] at hneeds hl
    refine ⟨hneeds, ?_⟩
    rw [Db.filePath, hl, Option.map_some, hpath, WorkItem.abs, hitem]
  rw [mem_statsOf_writesOf]
  constructor
  · rintro ⟨w, hw, hid, hstat⟩
    obtain ⟨k, hw⟩ := mem_order.1 hw
    have hdo : w.doStat = true := by
      by_contra hdo
      rw [WorkItem.statResult, if_neg hdo] at hstat
      cases hstat
    obtain ⟨hneeds, hfile⟩ := hwork hw ((hmerged.id k w hw).symm.trans hid) hdo
    rw [WorkItem.statResult, if_pos hdo] at hstat
    exact ⟨hneeds, by rw [hfile]; exact hstat⟩
  · rintro ⟨hneeds, hstat⟩
    obtain ⟨path, hrow, -⟩ := Db.exists_withLibraryPath hi hneeds
    obtain ⟨w, hw, hdo⟩ := hmerged.stat (i, path) hrow
    obtain ⟨-, hfile⟩ := hwork hw rfl hdo
    rw [hfile] at hstat
    exact ⟨w, mem_order.2 ⟨_, hw⟩, hmerged.id _ w hw, (if_pos hdo).trans hstat⟩

theorem mem_probedOf_passWork (hi : i ∈ db.items) :
    i.id ∈ probedOf (writesOf disk (g.order (passWork db))) ↔
      i.needsProbe probableExts = true := by
  have hmerged : Merged _ _ (passWork db) := merged_mergeWork _ _
  have hneeds : (∃ w ∈ g.order (passWork db), w.item.id = i.id ∧ w.doProbe = true) ↔
      ∃ w, (passWork db).lookup i.id = some w ∧ w.doProbe = true := by
    constructor
    · rintro ⟨w, hw, hid, hdo⟩
      obtain ⟨k, hw⟩ := mem_order.1 hw
      obtain rfl : k = i.id := (hmerged.id k w hw).symm.trans hid
      exact ⟨w, hw, hdo⟩
    · rintro ⟨w, hw, hdo⟩
      exact ⟨w, mem_order.2 ⟨_, hw⟩, hmerged.id _ w hw, hdo⟩
  rw [mem_probedOf_writesOf, hneeds, hmerged.probe]
  constructor
  · rintro ⟨r, hr, hid⟩
    obtain ⟨hmem, hneeds, -⟩ := Db.mem_withLibraryPath.1 hr
    exact Table.id_injective hmem hi hid ▸ hneeds
  · intro hneeds
    obtain ⟨path, hrow, -⟩ := Db.exists_withLibraryPath (p := (·.needsProbe probableExts)) hi hneeds
    exact ⟨(i, path), hrow, rfl⟩

theorem Item.Read.passed (hi : i ∈ db.items)
    (h : i.Read o (statsOf (writesOf disk (g.order (passWork db))))
      (probedOf (writesOf disk (g.order (passWork db)))) j) : i.Passed o disk (db.filePath i) j where
  same := h.same
  ty := h.ty
  stat stat hneeds hstat := by
    rcases h.stat with ⟨stat', hmem', hj⟩ | ⟨hnone, -⟩
    · obtain ⟨-, hstat'⟩ := (mem_statsOf_passWork hi).1 hmem'
      obtain rfl := Option.some_inj.1 (hstat.symm.trans hstat')
      exact hj
    · exact absurd ((mem_statsOf_passWork hi).2 ⟨hneeds, hstat⟩) (hnone stat)
  noStat hneeds := by
    rcases h.stat with ⟨stat, hmem, -⟩ | ⟨-, hj⟩
    · rw [((mem_statsOf_passWork hi).1 hmem).1] at hneeds
      cases hneeds
    · exact hj
  probe hneeds := by
    rcases h.probe with ⟨-, hj⟩ | ⟨hnone, -⟩
    · exact hj
    · exact absurd ((mem_probedOf_passWork hi).2 hneeds) hnone
  noProbe hneeds := by
    rcases h.probe with ⟨hmem, -⟩ | ⟨-, hj⟩
    · rw [(mem_probedOf_passWork hi).1 hmem] at hneeds
      cases hneeds
    · exact hj

theorem drain_of_runPending (h : runPending o g disk s = .ok stats s') :
    drain o disk (g.order (passWork s.db)) [] {} ⟨s.db, s.asked + 2, s.upserted⟩ =
      .ok stats s' := by
  obtain ⟨statRows, t, hstat, h⟩ := exists_of_bind_ok h
  obtain ⟨rfl, rfl⟩ := of_select_ok hstat
  obtain ⟨probeRows, t, hprobe, h⟩ := exists_of_bind_ok h
  obtain ⟨rfl, rfl⟩ := of_select_ok hprobe
  exact h

theorem read_of_runPending (h : runPending o g disk s = .ok stats s')
    (herr : stats.writeErrors = 0) :
    s.db.Read o (statsOf (writesOf disk (g.order (passWork s.db))))
      (probedOf (writesOf disk (g.order (passWork s.db)))) s'.db := by
  have hdrain : Ensures (Session.Written o s.db [] [] {})
      (drain o disk (g.order (passWork s.db)) [] {}) _ :=
    ensures_drain (Db.Read.keptByWrites s.db) _ []
  have hrun := hdrain ⟨s.db, s.asked + 2, s.upserted⟩ fun _ => Db.Read.refl s.db
  rw [drain_of_runPending h] at hrun
  exact hrun.2 herr

/-- A pass without a write error leaves the libraries and the rows, and makes of each row what it is
to make of it. -/
theorem passed_of_runPending (h : runPending o g disk s = .ok stats s')
    (herr : stats.writeErrors = 0) :
    s'.db.libraries = s.db.libraries ∧
      (∀ i ∈ s.db.items, ∃ j ∈ s'.db.items, i.Passed o disk (s.db.filePath i) j) ∧
      ∀ j ∈ s'.db.items, ∃ i ∈ s.db.items, i.Passed o disk (s.db.filePath i) j := by
  have hread := read_of_runPending h herr
  refine ⟨hread.libraries, fun i hi => ?_, fun j hj => ?_⟩
  · obtain ⟨j, hj, hij⟩ := hread.forth i hi
    exact ⟨j, hj, hij.passed hi⟩
  · obtain ⟨i, hi, hij⟩ := hread.back j hj
    exact ⟨i, hi, hij.passed hi⟩

end

end Waywallen
