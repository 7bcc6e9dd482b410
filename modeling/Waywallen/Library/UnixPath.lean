import Mathlib.Data.List.DropRight

/-!
# Unix paths

A path is read as a sequence of components: a root or a leading `.`, then the names between its
separators. Empty segments and further dots between the separators are no components, and what is
left of a path keeps them except at its ends.
-/

namespace UnixPath

/-- A first component that is no name. -/
inductive Head
  | rootDir
  | curDir
  deriving DecidableEq, Repr

def Head.text : Head → List Char
  | .rootDir => ['/']
  | .curDir => ['.']

/-- The first component, when it is no name, and the segments after it. -/
def split : List Char → Option Head × List (List Char)
  | '/' :: body => (some .rootDir, body.splitOn '/')
  | ['.'] => (some .curDir, [])
  | '.' :: '/' :: body => (some .curDir, ('/' :: body).splitOn '/')
  | body => (none, body.splitOn '/')

/-- Whether a segment is a component. -/
def isName (segment : List Char) : Bool :=
  segment ≠ [] && segment ≠ ['.']

/-- The segments after the given names, when these are the first ones. -/
def dropNames : List (List Char) → List (List Char) → Option (List (List Char))
  | segments, [] => some segments
  | [], _ :: _ => none
  | segment :: segments, name :: names =>
    if isName segment then
      if segment = name then dropNames segments names else none
    else dropNames segments (name :: names)

/-- The text of the segments, without what is no component at the end. -/
def join (segments : List (List Char)) : List Char :=
  ['/'].intercalate (segments.rdropWhile fun segment => !isName segment)

/-- The path below `base`, when `base` is a prefix of it component by component. -/
def stripPrefix (path base : List Char) : Option (List Char) :=
  let (head, segments) := split path
  let (baseHead, baseSegments) := split base
  let names := baseSegments.filter isName
  if baseHead = none ∧ names = [] then
    some ((head.map Head.text).getD [] ++ join segments)
  else if head = baseHead then
    (dropNames segments names).map fun rest => join (rest.dropWhile fun segment => !isName segment)
  else none

/-- `path` below `base`; an absolute path stays what it is. -/
def joinPath (base path : List Char) : List Char :=
  if path.head? = some '/' then path
  else if base = [] ∨ base.getLast? = some '/' then base ++ path
  else base ++ '/' :: path

example : stripPrefix "/ws//12/./scene.pkg".toList "/ws/".toList = some "12/./scene.pkg".toList := by
  decide

/-! ## File names -/

/-- The last name of a path, unless that is `..`. -/
def fileName (path : List Char) : Option (List Char) :=
  match ((split path).2.filter isName).getLast? with
  | some name => if name = ['.', '.'] then none else some name
  | none => none

/-- A file name around its last dot; a dot in front does not count. -/
def splitAtDot (name : List Char) : List Char × Option (List Char) :=
  let rev := name.reverse
  let ext := rev.takeWhile (· ≠ '.')
  match rev.dropWhile (· ≠ '.') with
  | [] => (name, none)
  | _ :: stem => if stem = [] then (name, none) else (stem.reverse, some ext.reverse)

def extension (name : List Char) : Option (List Char) := (splitAtDot name).2

/-- A path that ends with its file name, with another extension. -/
def withExtension (path ext : List Char) : List Char :=
  match fileName path with
  | none => path
  | some name => path.take (path.length - name.length) ++ (splitAtDot name).1 ++ '.' :: ext

/-- A path below `root`, as far as its text tells. -/
def Inside (root path : List Char) : Prop :=
  ∃ segments : List (List Char), path = root ++ segments.flatMap ('/' :: ·) ∧
    (∀ segment ∈ segments, '/' ∉ segment ∧ segment ≠ ['.', '.']) ∧
      ∃ segment ∈ segments, isName segment = true

/-- A segment that is a component and leads down. -/
structure Proper (name : List Char) : Prop where
  noSep : '/' ∉ name
  nonempty : name ≠ []
  ne_curDir : name ≠ ['.']
  ne_parentDir : name ≠ ['.', '.']

/-! ## A name below a directory -/

theorem notMem_of_mem_splitOn {a : Char} {xs : List Char} : ∀ l ∈ xs.splitOn a, a ∉ l := by
  induction xs with
  | nil => simp
  | cons x xs ih =>
    intro l hl
    rw [List.splitOn_cons_eq_if_modifyHead] at hl
    split at hl
    · obtain rfl | hl := List.mem_cons.1 hl
      · exact List.not_mem_nil
      · exact ih l hl
    · rename_i hx
      obtain ⟨m, ms, hm⟩ := List.exists_cons_of_ne_nil (List.splitOn_ne_nil a xs)
      rw [hm, List.modifyHead_cons] at hl
      rw [hm] at ih
      obtain rfl | hl := List.mem_cons.1 hl
      · intro ha
        obtain rfl | ha := List.mem_cons.1 ha
        · exact hx (beq_self_eq_true a)
        · exact ih m List.mem_cons_self ha
      · exact ih l (List.mem_cons_of_mem _ hl)

theorem Proper.isName {name : List Char} (h : Proper name) : isName name = true := by
  simp [UnixPath.isName, h.nonempty, h.ne_curDir]

/-- What has no root and no leading dot is split as it is. -/
theorem split_of_ne {c : Char} {cs : List Char} (hroot : c ≠ '/')
    (hdot : c = '.' → cs ≠ [] ∧ cs.head? ≠ some '/') :
    split (c :: cs) = (none, (c :: cs).splitOn '/') := by
  unfold split
  split
  · rename_i h
    exact absurd (List.cons.inj h).1 hroot
  · rename_i h
    obtain ⟨rfl, rfl⟩ := List.cons.inj h
    exact absurd rfl (hdot rfl).1
  · rename_i h
    obtain ⟨rfl, rfl⟩ := List.cons.inj h
    exact absurd rfl (hdot rfl).2
  · rfl

/-- The first component of a path that is not empty: a root, a leading dot, or a name. -/
theorem split_cases {path : List Char} (hpath : path ≠ []) :
    (∃ body, path = '/' :: body) ∨ path = ['.'] ∨ (∃ body, path = '.' :: '/' :: body) ∨
      ∃ c cs, path = c :: cs ∧ c ≠ '/' ∧ (c = '.' → cs ≠ [] ∧ cs.head? ≠ some '/') := by
  obtain ⟨c, cs, rfl⟩ := List.exists_cons_of_ne_nil hpath
  by_cases hroot : c = '/'
  · exact .inl ⟨cs, by rw [hroot]⟩
  · by_cases hdot : c = '.'
    · subst hdot
      cases cs with
      | nil => exact .inr (.inl rfl)
      | cons d ds =>
        by_cases hd : d = '/'
        · exact .inr (.inr (.inl ⟨ds, by rw [hd]⟩))
        · exact .inr (.inr (.inr ⟨_, _, rfl, hroot, fun _ => ⟨nofun, fun h =>
            hd (Option.some_inj.1 h)⟩⟩))
    · exact .inr (.inr (.inr ⟨_, _, rfl, hroot, fun h => absurd h hdot⟩))

/-- What is behind a directory is split as it is, after segments with the same names. -/
theorem split_append {dir : List Char} (hdir : dir ≠ []) (body : List Char) :
    ∃ segments, split (dir ++ '/' :: body) = ((split dir).1, segments ++ body.splitOn '/') ∧
      segments.filter isName = (split dir).2.filter isName := by
  have hsplit (xs : List Char) :
      (xs ++ '/' :: body).splitOn '/' = xs.splitOn '/' ++ body.splitOn '/' :=
    List.splitOn_append_cons_self xs body
  obtain ⟨inner, rfl⟩ | rfl | ⟨inner, rfl⟩ | ⟨c, cs, rfl, hroot, hdot⟩ := split_cases hdir
  · exact ⟨_, congrArg (Prod.mk _) (hsplit inner), rfl⟩
  · exact ⟨[[]], congrArg (Prod.mk _) (hsplit []), rfl⟩
  · exact ⟨_, congrArg (Prod.mk _) (hsplit ('/' :: inner)), rfl⟩
  · refine ⟨(c :: cs).splitOn '/', ?_, by rw [split_of_ne hroot hdot]⟩
    rw [split_of_ne hroot hdot, List.cons_append, split_of_ne hroot, ← List.cons_append, hsplit]
    refine fun h => ⟨by simp, ?_⟩
    obtain ⟨d, ds, rfl⟩ := List.exists_cons_of_ne_nil (hdot h).1
    exact (hdot h).2

/-- A name behind a directory is its last segment. -/
theorem split_append_name {dir name : List Char} (hdir : dir ≠ []) (hname : '/' ∉ name) :
    ∃ segments, split (dir ++ '/' :: name) = ((split dir).1, segments ++ [name]) ∧
      segments.filter isName = (split dir).2.filter isName := by
  have hsplit := split_append hdir name
  rwa [List.splitOn_eq_singleton hname] at hsplit

/-- What has no root and no leading dot begins with a name. -/
theorem splitOn_of_ne {c : Char} {cs : List Char} (hroot : c ≠ '/')
    (hdot : c = '.' → cs ≠ [] ∧ cs.head? ≠ some '/') :
    ∃ m ms, (c :: cs).splitOn '/' = (c :: m) :: ms ∧ isName (c :: m) = true ∧ (c = '.' → m ≠ []) := by
  obtain ⟨m, ms, hm⟩ := List.exists_cons_of_ne_nil (List.splitOn_ne_nil '/' cs)
  have hlong : c = '.' → m ≠ [] := by
    rintro hc rfl
    obtain ⟨hcs, hslash⟩ := hdot hc
    obtain ⟨d, ds, rfl⟩ := List.exists_cons_of_ne_nil hcs
    rw [List.splitOn_cons_eq_if_modifyHead,
      if_neg (by simpa using fun h => hslash (congrArg some h))] at hm
    obtain ⟨n, ns, hn⟩ := List.exists_cons_of_ne_nil (List.splitOn_ne_nil '/' ds)
    rw [hn, List.modifyHead_cons] at hm
    cases hm
  refine ⟨m, ms, ?_, by simpa [isName, imp_iff_not_or] using hlong, hlong⟩
  rw [List.splitOn_cons_eq_if_modifyHead, if_neg (by simpa using hroot), hm, List.modifyHead_cons]

/-- A path without a root or a leading dot begins with a name. -/
theorem names_ne_nil {path : List Char} (hpath : path ≠ []) (hhead : (split path).1 = none) :
    (split path).2.filter isName ≠ [] := by
  obtain ⟨body, rfl⟩ | rfl | ⟨body, rfl⟩ | ⟨c, cs, rfl, hroot, hdot⟩ := split_cases hpath
  · cases hhead
  · cases hhead
  · cases hhead
  · obtain ⟨m, ms, hsplit, hname, -⟩ := splitOn_of_ne hroot hdot
    rw [split_of_ne hroot hdot, hsplit, List.filter_cons_of_pos hname]
    nofun

/-- Behind its own names, a path leaves what follows them. -/
theorem dropNames_append (segments left : List (List Char)) :
    ∃ rest, dropNames (segments ++ left) (segments.filter isName) = some (rest ++ left) ∧
      ∀ segment ∈ rest, isName segment = false := by
  induction segments with
  | nil => exact ⟨[], by simp [dropNames], nofun⟩
  | cons segment segments ih =>
    obtain ⟨rest, hrest, hnone⟩ := ih
    by_cases hs : isName segment = true
    · refine ⟨rest, ?_, hnone⟩
      rw [List.filter_cons_of_pos hs, List.cons_append, dropNames, if_pos hs, if_pos rfl, hrest]
    · rw [List.filter_cons_of_neg hs, List.cons_append]
      cases hnames : segments.filter isName with
      | nil =>
        refine ⟨segment :: segments, by rw [dropNames, List.cons_append], fun m hm => ?_⟩
        obtain rfl | hm := List.mem_cons.1 hm
        · exact Bool.not_eq_true _ ▸ hs
        · simpa using List.filter_eq_nil_iff.1 hnames m hm
      | cons n ns =>
        refine ⟨rest, ?_, hnone⟩
        rw [dropNames, if_neg hs, ← hnames, hrest]

/-- A file of a directory, below that directory. -/
theorem stripPrefix_append {dir name : List Char} (hdir : dir ≠ []) (hname : Proper name) :
    stripPrefix (dir ++ '/' :: name) dir = some name := by
  obtain ⟨segments, hsplit, hnames⟩ := split_append_name hdir hname.noSep
  obtain ⟨rest, hrest, hnone⟩ := dropNames_append segments [name]
  have hbase : ¬((split dir).1 = none ∧ (split dir).2.filter isName = []) :=
    fun ⟨hhead, hnil⟩ => names_ne_nil hdir hhead hnil
  have hdrop : (rest ++ [name]).dropWhile (fun segment => !isName segment) = [name] := by
    rw [List.dropWhile_append_of_pos fun m hm => by rw [hnone m hm]; rfl,
      List.dropWhile_cons_of_neg (by simp [hname.isName])]
  rw [stripPrefix, hsplit]
  simp only [hbase, if_false, if_true]
  rw [← hnames, hrest, Option.map_some, hdrop, join, List.rdropWhile_singleton]
  simp [hname.isName, List.intercalate]

theorem fileName_append {dir name : List Char} (hdir : dir ≠ []) (hname : Proper name) :
    fileName (dir ++ '/' :: name) = some name := by
  obtain ⟨segments, hsplit, -⟩ := split_append_name hdir hname.noSep
  rw [fileName, hsplit]
  simp [hname.isName, hname.ne_parentDir]

theorem noSep_of_mem_split {path segment : List Char} (h : segment ∈ (split path).2) :
    '/' ∉ segment := by
  by_cases hpath : path = []
  · subst hpath
    exact notMem_of_mem_splitOn segment h
  · obtain ⟨body, rfl⟩ | rfl | ⟨body, rfl⟩ | ⟨c, cs, rfl, hroot, hdot⟩ := split_cases hpath
    · exact notMem_of_mem_splitOn segment h
    · cases h
    · exact notMem_of_mem_splitOn segment h
    · rw [split_of_ne hroot hdot] at h
      exact notMem_of_mem_splitOn segment h

/-- A name that is joined to a directory lies right below it. -/
theorem joinPath_name {dir name : List Char} (hdir : dir ≠ []) (hlast : dir.getLast? ≠ some '/')
    (hname : '/' ∉ name) : joinPath dir name = dir ++ '/' :: name := by
  have hhead : name.head? ≠ some '/' := fun h => hname (List.mem_of_head? h)
  rw [joinPath, if_neg hhead, if_neg (not_or.2 ⟨hdir, hlast⟩)]

/-- Whatever it is joined to, a name ends the path. -/
theorem joinPath_ends {base name : List Char} (hname : '/' ∉ name) :
    ∃ front, joinPath base name = front ++ name := by
  have hhead : name.head? ≠ some '/' := fun h => hname (List.mem_of_head? h)
  rw [joinPath, if_neg hhead]
  split
  · exact ⟨base, rfl⟩
  · exact ⟨base ++ ['/'], List.append_cons ..⟩

/-- A file name is a component that leads down. -/
theorem proper_of_fileName {path name : List Char} (h : fileName path = some name) :
    Proper name := by
  rw [fileName] at h
  split at h
  · rename_i n hlast
    obtain ⟨hparent, heq⟩ := Option.ite_none_left_eq_some.1 h
    obtain rfl := Option.some_inj.1 heq
    obtain ⟨hmem, hname⟩ := List.mem_filter.1 (List.mem_of_getLast? hlast)
    rw [isName, Bool.and_eq_true, decide_eq_true_iff, decide_eq_true_iff] at hname
    exact ⟨noSep_of_mem_split hmem, hname.1, hname.2, hparent⟩
  · cases h

/-! ## Paths below a root -/

theorem inside_append (root : List Char) {name : List Char} {above : List (List Char)}
    (habove : ∀ segment ∈ above, '/' ∉ segment ∧ segment ≠ ['.', '.']) (hname : Proper name) :
    Inside root (root ++ above.flatMap ('/' :: ·) ++ '/' :: name) := by
  refine ⟨above ++ [name], by simp, fun segment hs => ?_, name, by simp, hname.isName⟩
  obtain hs | hs := List.mem_append.1 hs
  · exact habove segment hs
  · rw [List.mem_singleton.1 hs]
    exact ⟨hname.noSep, hname.ne_parentDir⟩

/-! ## Extensions -/

theorem splitAtDot_stem {name : List Char} (hname : Proper name) :
    (splitAtDot name).1 ≠ [] ∧ '/' ∉ (splitAtDot name).1 := by
  have hsub : ∀ c ∈ name.reverse.dropWhile (· ≠ '.'), c ∈ name := fun c hc =>
    List.mem_reverse.1 ((List.dropWhile_sublist _).subset hc)
  simp only [splitAtDot]
  split
  · exact ⟨hname.nonempty, hname.noSep⟩
  · rename_i d stem hstem
    rw [hstem] at hsub
    split
    · exact ⟨hname.nonempty, hname.noSep⟩
    · rename_i hne
      exact ⟨List.reverse_ne_nil_iff.2 hne, fun h =>
        hname.noSep (hsub '/' (List.mem_cons_of_mem _ (List.mem_reverse.1 h)))⟩

theorem notMem_extension {name ext : List Char} (hname : Proper name)
    (h : extension name = some ext) : '/' ∉ ext := by
  simp only [extension, splitAtDot] at h
  split at h
  · cases h
  · split at h
    · cases h
    · obtain rfl := Option.some_inj.1 h
      exact fun hc => hname.noSep (List.mem_reverse.1
        ((List.takeWhile_sublist _).subset (List.mem_reverse.1 hc)))

/-- Another extension stays in the directory. -/
theorem withExtension_append {dir name ext : List Char} (hdir : dir ≠ []) (hname : Proper name) :
    withExtension (dir ++ '/' :: name) ext = dir ++ '/' :: ((splitAtDot name).1 ++ '.' :: ext) := by
  have htake : (dir ++ '/' :: name).take ((dir ++ '/' :: name).length - name.length) =
      dir ++ ['/'] := by
    have hlength : (dir ++ '/' :: name).length - name.length = (dir ++ ['/']).length := by
      simp only [List.length_append, List.length_cons, List.length_nil]
      omega
    rw [hlength, List.append_cons dir '/' name, List.take_left]
  rw [withExtension, fileName_append hdir hname]
  simp only [htake]
  simp

theorem proper_withExtension {name ext : List Char} (hname : Proper name) (hext : ext ≠ [])
    (hsep : '/' ∉ ext) : Proper ((splitAtDot name).1 ++ '.' :: ext) := by
  obtain ⟨hstem, hnoSep⟩ := splitAtDot_stem hname
  have hlength : 3 ≤ ((splitAtDot name).1 ++ '.' :: ext).length := by
    have hstem := List.length_pos_iff.2 hstem
    have hext := List.length_pos_iff.2 hext
    simp only [List.length_append, List.length_cons]
    omega
  refine ⟨by simp [hnoSep, hsep], ?_, ?_, ?_⟩
  all_goals
    intro h
    rw [h] at hlength
    contradiction

end UnixPath
