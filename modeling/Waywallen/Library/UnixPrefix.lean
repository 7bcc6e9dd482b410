import Waywallen.Library.UnixPath

/-!
# Paths below a base and back

What is left of a path below a base is joined to the base again. The result has the components of
the path, and what is left of it is the same, also when there are more slashes between the two. This
holds of every base but the empty one, which is a prefix of every path: there, the two paths are
both absolute or neither is.
-/

namespace UnixPath

/-- Two paths with the same components denote the same file. -/
def components (path : List Char) : Option Head × List (List Char) :=
  ((split path).1, (split path).2.filter isName)

/-- The text ends with a name. -/
def Trimmed (text : List Char) : Prop :=
  ∃ name ∈ (text.splitOn '/').getLast?, isName name = true

section

variable {path base text rest slashes : List Char} {segments names left : List (List Char)}
  {name : List Char}

/-! ## Slashes -/

theorem splitOn_slashes (hslashes : ∀ c ∈ slashes, c = '/') (text : List Char) :
    (slashes ++ text).splitOn '/' = List.replicate slashes.length [] ++ text.splitOn '/' := by
  induction slashes with
  | nil => rfl
  | cons c slashes ih =>
    obtain rfl := hslashes c List.mem_cons_self
    have hcons : ('/' :: (slashes ++ text)).splitOn '/' = [] :: (slashes ++ text).splitOn '/' :=
      List.splitOn_append_cons_self [] (slashes ++ text)
    rw [List.cons_append, hcons, ih fun c hc => hslashes c (List.mem_cons_of_mem _ hc)]
    rfl

theorem dropWhile_relative (htext : text.head? ≠ some '/') :
    text.dropWhile (· = '/') = text := by
  cases text with
  | nil => rfl
  | cons c cs =>
    rw [List.dropWhile_cons_of_neg]
    exact fun hc => htext (congrArg some (of_decide_eq_true hc))

theorem dropWhile_slashes (hslashes : ∀ c ∈ slashes, c = '/') (htext : text.head? ≠ some '/') :
    (slashes ++ text).dropWhile (· = '/') = text := by
  rw [List.dropWhile_append_of_pos fun c hc => decide_eq_true (hslashes c hc),
    dropWhile_relative htext]

theorem head?_dropWhile_slashes (text : List Char) :
    (text.dropWhile (· = '/')).head? ≠ some '/' := by
  intro h
  have hnot := List.head?_dropWhile_not (fun c : Char => c = '/') text
  rw [h] at hnot
  exact absurd hnot (by decide)

/-- Between the base without its slashes at the end and a relative path, there are slashes, unless
the base is empty. -/
theorem joinPath_rdropWhile (base : List Char) (hpath : path.head? ≠ some '/') :
    ∃ slashes : List Char, (∀ c ∈ slashes, c = '/') ∧ (slashes = [] → base = []) ∧
      joinPath base path = base.rdropWhile (· = '/') ++ (slashes ++ path) := by
  have hends : ∀ c ∈ base.rtakeWhile (· = '/'), c = '/' := fun c hc => by
    simpa using List.mem_rtakeWhile_imp hc
  have hbase : base.rdropWhile (· = '/') ++ base.rtakeWhile (· = '/') = base :=
    List.rdropWhile_append_rtakeWhile
  unfold joinPath
  rw [if_neg hpath]
  split
  · rename_i hlast
    refine ⟨base.rtakeWhile (· = '/'), hends, fun hnil => ?_, ?_⟩
    · refine hlast.resolve_right fun hlast => ?_
      have hne : base ≠ [] := fun h => by rw [h] at hlast; cases hlast
      refine List.rtakeWhile_eq_nil_iff.1 hnil hne (decide_eq_true ?_)
      rw [List.getLast?_eq_getLast_of_ne_nil hne] at hlast
      exact Option.some_inj.1 hlast
    · rw [← List.append_assoc, hbase]
  · refine ⟨base.rtakeWhile (· = '/') ++ ['/'], fun c hc => ?_, by simp, ?_⟩
    · exact (List.mem_append.1 hc).elim (hends c) fun h => List.mem_singleton.1 h
    · rw [List.append_assoc, ← List.append_assoc, hbase]
      rfl

theorem head?_joinPath (base : List Char) (hpath : path.head? ≠ some '/') :
    (joinPath base path).head? = some '/' ↔ base.head? = some '/' := by
  rw [joinPath, if_neg hpath]
  cases base with
  | nil => exact iff_of_false hpath fun h => absurd h.symm (Option.some_ne_none _)
  | cons c base => split <;> rfl

theorem isName_nil : isName [] = false :=
  rfl

theorem filter_splitOn_slashes (hslashes : ∀ c ∈ slashes, c = '/') (text : List Char) :
    ((slashes ++ text).splitOn '/').filter isName = (text.splitOn '/').filter isName := by
  rw [splitOn_slashes hslashes, List.filter_append, List.filter_replicate, isName_nil]
  rfl

theorem trimmed_slashes (hslashes : ∀ c ∈ slashes, c = '/') :
    Trimmed (slashes ++ text) ↔ Trimmed text := by
  rw [Trimmed, Trimmed, splitOn_slashes hslashes,
    List.getLast?_append_of_ne_nil _ (List.splitOn_ne_nil _ _)]

/-! ## Segments without what is no component at the end -/

theorem filter_rdropWhile (segments : List (List Char)) :
    (segments.rdropWhile fun segment => !isName segment).filter isName =
      segments.filter isName := by
  induction segments using List.reverseRecOn with
  | nil => rfl
  | append_singleton segments segment ih =>
    cases hname : isName segment with
    | true => rw [List.rdropWhile_concat_neg _ _ _ (by simp [hname])]
    | false =>
      rw [List.rdropWhile_concat_pos _ _ _ (by simp [hname]), ih, List.filter_append,
        List.filter_cons_of_neg (by simp [hname]), List.filter_nil, List.append_nil]

/-- A name in front stays. -/
theorem rdropWhile_cons (hname : isName name = true) (segments : List (List Char)) :
    ∃ front, (name :: segments).rdropWhile (fun segment => !isName segment) = name :: front := by
  have hne : (name :: segments).rdropWhile (fun segment => !isName segment) ≠ [] := fun h => by
    have hall := List.rdropWhile_eq_nil_iff.1 h name List.mem_cons_self
    simp [hname] at hall
  obtain ⟨first, front, hfront⟩ := List.exists_cons_of_ne_nil hne
  have hprefix := List.rdropWhile_prefix (fun segment => !isName segment) (name :: segments)
  rw [hfront] at hprefix
  exact ⟨front, hfront.trans (congrArg (· :: front) (List.cons_prefix_cons.1 hprefix).1)⟩

theorem splitOn_join (hsep : ∀ segment ∈ segments, '/' ∉ segment)
    (hne : segments.rdropWhile (fun segment => !isName segment) ≠ []) :
    (join segments).splitOn '/' = segments.rdropWhile fun segment => !isName segment :=
  List.splitOn_intercalate '/'
    (fun segment hs => hsep segment ((List.rdropWhile_prefix _ segments).subset hs)) hne

theorem join_eq_nil (h : segments.rdropWhile (fun segment => !isName segment) = []) :
    join segments = [] := by
  rw [join, h]
  rfl

/-- The text of the segments has the same names. -/
theorem filter_splitOn_join (hsep : ∀ segment ∈ segments, '/' ∉ segment) :
    ((join segments).splitOn '/').filter isName = segments.filter isName := by
  by_cases hne : segments.rdropWhile (fun segment => !isName segment) = []
  · have hnil : segments.filter isName = [] := by
      rw [← filter_rdropWhile, hne]
      rfl
    rw [join_eq_nil hne, hnil]
    rfl
  · rw [splitOn_join hsep hne, filter_rdropWhile]

theorem trimmed_join (hsep : ∀ segment ∈ segments, '/' ∉ segment) (hne : join segments ≠ []) :
    Trimmed (join segments) := by
  have hne : segments.rdropWhile (fun segment => !isName segment) ≠ [] := fun h =>
    hne (join_eq_nil h)
  refine ⟨_, ?_, by simpa using List.rdropWhile_last_not _ segments hne⟩
  rw [splitOn_join hsep hne]
  exact List.getLast?_eq_getLast_of_ne_nil hne

theorem join_splitOn (h : Trimmed text) : join (text.splitOn '/') = text := by
  obtain ⟨name, hlast, hname⟩ := h
  have hself : (text.splitOn '/').rdropWhile (fun segment => !isName segment) =
      text.splitOn '/' := by
    refine List.rdropWhile_eq_self_iff.2 fun hne => ?_
    rw [List.getLast?_eq_getLast_of_ne_nil hne] at hlast
    rw [Option.some_inj.1 hlast, hname]
    exact Bool.false_ne_true
  rw [join, hself, List.intercalate_splitOn]

/-! ## Below a base that is not empty -/

/-- The first segments have the names of the base. -/
theorem filter_of_dropNames (hnames : ∀ name ∈ names, isName name = true)
    (h : dropNames segments names = some left) :
    segments.filter isName = names ++ left.filter isName ∧
      ∀ segment ∈ left, segment ∈ segments := by
  induction segments generalizing names with
  | nil =>
    cases names with
    | nil =>
      obtain rfl := Option.some_inj.1 h
      exact ⟨rfl, fun _ hs => hs⟩
    | cons name names => cases h
  | cons segment segments ih =>
    cases names with
    | nil =>
      obtain rfl := Option.some_inj.1 h
      exact ⟨rfl, fun _ hs => hs⟩
    | cons name names =>
      rw [dropNames] at h
      split at h
      · rename_i hs
        split at h
        · rename_i heq
          subst heq
          obtain ⟨hfilter, hsub⟩ := ih (fun n hn => hnames n (List.mem_cons_of_mem _ hn)) h
          exact ⟨by rw [List.filter_cons_of_pos hs, hfilter, List.cons_append],
            fun n hn => List.mem_cons_of_mem _ (hsub n hn)⟩
        · cases h
      · rename_i hs
        obtain ⟨hfilter, hsub⟩ := ih hnames h
        exact ⟨by rw [List.filter_cons_of_neg hs, hfilter],
          fun n hn => List.mem_cons_of_mem _ (hsub n hn)⟩

/-- The segments from the first name on. -/
theorem dropWhile_names (segments : List (List Char)) :
    ∃ left, segments.dropWhile (fun segment => !isName segment) = left ∧
      (∀ segment ∈ left, segment ∈ segments) ∧ left.filter isName = segments.filter isName ∧
      (left = [] ∨ ∃ name more, left = name :: more ∧ isName name = true) := by
  induction segments with
  | nil => exact ⟨[], rfl, fun _ hs => hs, rfl, .inl rfl⟩
  | cons segment segments ih =>
    cases hname : isName segment with
    | true =>
      exact ⟨_, List.dropWhile_cons_of_neg (by simp [hname]), fun _ hs => hs, rfl,
        .inr ⟨segment, segments, rfl, hname⟩⟩
    | false =>
      obtain ⟨left, hleft, hsub, hfilter, hor⟩ := ih
      refine ⟨left, ?_, fun n hn => List.mem_cons_of_mem _ (hsub n hn), ?_, hor⟩
      · rw [List.dropWhile_cons_of_pos (by simp [hname]), hleft]
      · rw [List.filter_cons_of_neg (by simp [hname]), hfilter]

/-- What is left of a path: the text of segments of which the first is a name, if there are any. -/
theorem left_of_stripPrefix (hbase : base ≠ []) (h : stripPrefix path base = some rest) :
    (split path).1 = (split base).1 ∧ ∃ left, rest = join left ∧ (∀ segment ∈ left, '/' ∉ segment) ∧
      (split path).2.filter isName = (split base).2.filter isName ++ left.filter isName ∧
      (left = [] ∨ ∃ name more, left = name :: more ∧ isName name = true) := by
  have hnonempty : ¬((split base).1 = none ∧ (split base).2.filter isName = []) :=
    fun ⟨hhead, hnil⟩ => names_ne_nil hbase hhead hnil
  rw [stripPrefix] at h
  dsimp only at h
  rw [if_neg hnonempty] at h
  split at h
  case isFalse => cases h
  rename_i hhead
  obtain ⟨after, hdrop, hrest⟩ := Option.map_eq_some_iff.1 h
  obtain ⟨hfilter, hsub⟩ :=
    filter_of_dropNames (fun name hname => (List.mem_filter.1 hname).2) hdrop
  obtain ⟨left, hleft, hlsub, hlfilter, hor⟩ := dropWhile_names after
  rw [hleft] at hrest
  exact ⟨hhead, left, hrest.symm, fun segment hs =>
    noSep_of_mem_split (hsub segment (hlsub segment hs)),
    by rw [hfilter, hlfilter], hor⟩

theorem components_append {dir : List Char} (hdir : dir ≠ []) (body : List Char) :
    components (dir ++ '/' :: body) =
      ((components dir).1, (components dir).2 ++ (body.splitOn '/').filter isName) := by
  obtain ⟨segments, hsplit, hnames⟩ := split_append hdir body
  rw [components, hsplit, List.filter_append, hnames]
  rfl

/-- What is left of a path goes back behind the base. -/
theorem stripPrefix_back (hbase : base ≠ []) (h : stripPrefix path base = some rest)
    (hrest : rest ≠ []) :
    rest.head? ≠ some '/' ∧ ∀ slashes : List Char, (∀ c ∈ slashes, c = '/') →
      components (base ++ '/' :: (slashes ++ rest)) = components path ∧
        stripPrefix (base ++ '/' :: (slashes ++ rest)) base = some rest := by
  obtain ⟨hhead, left, rfl, hsep, hfilter, hleft⟩ := left_of_stripPrefix hbase h
  have hne : left.rdropWhile (fun segment => !isName segment) ≠ [] := fun h => hrest (join_eq_nil h)
  obtain ⟨name, more, rfl, hname⟩ := hleft.resolve_left fun hnil => hne (by rw [hnil]; rfl)
  obtain ⟨front, hfront⟩ := rdropWhile_cons hname more
  have hsplit : (join (name :: more)).splitOn '/' = name :: front :=
    (splitOn_join hsep hne).trans hfront
  refine ⟨fun hslash => ?_, fun slashes hslashes => ⟨?_, ?_⟩⟩
  · obtain ⟨tail, htail⟩ := List.head?_eq_some_iff.1 hslash
    have hempty : ('/' :: tail).splitOn '/' = [] :: tail.splitOn '/' :=
      List.splitOn_append_cons_self [] tail
    rw [htail, hempty] at hsplit
    rw [← (List.cons.inj hsplit).1] at hname
    cases hname
  · rw [components_append hbase, filter_splitOn_slashes hslashes, filter_splitOn_join hsep,
      components, components, hhead, hfilter]
  · obtain ⟨segments, hsegments, hnames⟩ := split_append hbase (slashes ++ join (name :: more))
    obtain ⟨behind, hbehind, hnone⟩ := dropNames_append segments
      ((slashes ++ join (name :: more)).splitOn '/')
    have hnonempty : ¬((split base).1 = none ∧ (split base).2.filter isName = []) :=
      fun ⟨hhead, hnil⟩ => names_ne_nil hbase hhead hnil
    have hdrop : (behind ++ (slashes ++ join (name :: more)).splitOn '/').dropWhile
        (fun segment => !isName segment) = (join (name :: more)).splitOn '/' := by
      rw [List.dropWhile_append_of_pos fun m hm => by rw [hnone m hm]; rfl,
        splitOn_slashes hslashes, List.dropWhile_append_of_pos fun m hm => by
          rw [List.eq_of_mem_replicate hm]; rfl, hsplit, List.dropWhile_cons_of_neg (by simp [hname])]
    rw [stripPrefix, hsegments]
    simp only [hnonempty, if_false, if_true]
    rw [← hnames, hbehind, Option.map_some, hdrop, join_splitOn (trimmed_join hsep hrest)]

/-! ## Below the empty base -/

/-- The path without what is no component at its end. -/
theorem stripPrefix_nil (path : List Char) :
    stripPrefix path [] = some (((split path).1.map Head.text).getD [] ++ join (split path).2) :=
  rfl

theorem stripPrefix_root (body : List Char) :
    stripPrefix ('/' :: body) [] = some ('/' :: join (body.splitOn '/')) :=
  rfl

theorem head_eq_rootDir_iff : (split path).1 = some .rootDir ↔ path.head? = some '/' := by
  by_cases hpath : path = []
  · subst hpath
    exact iff_of_false nofun nofun
  · obtain ⟨body, rfl⟩ | rfl | ⟨body, rfl⟩ | ⟨c, cs, rfl, hroot, hdot⟩ := split_cases hpath
    · exact iff_of_true rfl rfl
    · exact iff_of_false nofun nofun
    · exact iff_of_false nofun nofun
    · rw [split_of_ne hroot hdot]
      exact iff_of_false nofun fun h => hroot (Option.some_inj.1 h)

/-- A slash in front stays, if there is a name. -/
theorem join_nil_cons (hne : join ([] :: segments) ≠ []) :
    ∃ text, join ([] :: segments) = '/' :: text := by
  have hne' : ([] :: segments).rdropWhile (fun segment => !isName segment) ≠ [] := fun h =>
    hne (join_eq_nil h)
  obtain ⟨first, front, hfront⟩ := List.exists_cons_of_ne_nil hne'
  have hprefix := List.rdropWhile_prefix (fun segment => !isName segment) ([] :: segments)
  rw [hfront] at hprefix
  obtain rfl := (List.cons_prefix_cons.1 hprefix).1
  rw [join, hfront] at hne ⊢
  cases front with
  | nil => exact absurd rfl hne
  | cons second front => exact ⟨_, List.intercalate_cons_cons⟩

/-- Below the empty base, a path that is not absolute is the same path, and so is what is left of
that. -/
theorem stripPrefix_nil_back (hpath : path.head? ≠ some '/') (h : stripPrefix path [] = some rest)
    (hrest : rest ≠ []) :
    rest.head? ≠ some '/' ∧ components rest = components path ∧
      stripPrefix rest [] = some rest := by
  have hne : path ≠ [] := by
    rintro rfl
    exact hrest (Option.some_inj.1 h).symm
  obtain ⟨body, rfl⟩ | rfl | ⟨body, rfl⟩ | ⟨c, cs, rfl, hroot, hdot⟩ := split_cases hne
  · exact absurd rfl hpath
  · obtain rfl := Option.some_inj.1 h
    exact ⟨hpath, rfl, rfl⟩
  · have hcons : ('/' :: body).splitOn '/' = [] :: body.splitOn '/' :=
      List.splitOn_append_cons_self [] body
    have hsep : ∀ segment ∈ ('/' :: body).splitOn '/', '/' ∉ segment := notMem_of_mem_splitOn
    have hdot : some '.' ≠ some '/' := by decide
    have hrest' : '.' :: join (('/' :: body).splitOn '/') = rest := Option.some_inj.1 h
    subst hrest'
    have hfilter := filter_splitOn_join hsep
    by_cases hjoin : join (('/' :: body).splitOn '/') = []
    · rw [hjoin] at hfilter ⊢
      exact ⟨hdot, congrArg (Prod.mk (some Head.curDir)) hfilter, rfl⟩
    · have htrimmed := join_splitOn (trimmed_join hsep hjoin)
      obtain ⟨text, htext⟩ : ∃ text, join (('/' :: body).splitOn '/') = '/' :: text := by
        rw [hcons] at hjoin ⊢
        exact join_nil_cons hjoin
      rw [htext] at hfilter htrimmed ⊢
      exact ⟨hdot, congrArg (Prod.mk (some Head.curDir)) hfilter,
        congrArg (fun text => some ('.' :: text)) htrimmed⟩
  · obtain ⟨m, ms, hsplit, hname, hlong⟩ := splitOn_of_ne hroot hdot
    have hsep : ∀ segment ∈ (c :: cs).splitOn '/', '/' ∉ segment := notMem_of_mem_splitOn
    have hrest' : join ((c :: cs).splitOn '/') = rest := by
      rw [stripPrefix_nil, split_of_ne hroot hdot] at h
      exact Option.some_inj.1 h
    subst hrest'
    have hfilter := filter_splitOn_join hsep
    have htrimmed := join_splitOn (trimmed_join hsep hrest)
    obtain ⟨front, hfront⟩ := rdropWhile_cons hname ms
    obtain ⟨ds, hds, hddot⟩ : ∃ ds, join ((c :: cs).splitOn '/') = c :: ds ∧
        (c = '.' → ds ≠ [] ∧ ds.head? ≠ some '/') := by
      obtain ⟨more, hmore⟩ : ∃ more, join ((c :: cs).splitOn '/') = (c :: m) ++ more := by
        rw [join, hsplit, hfront]
        cases front with
        | nil => exact ⟨[], by rw [List.intercalate_singleton, List.append_nil]⟩
        | cons second front => exact ⟨_, List.intercalate_cons_cons.trans (List.append_assoc ..)⟩
      refine ⟨m ++ more, hmore, fun hc => ?_⟩
      obtain ⟨d, n, rfl⟩ := List.exists_cons_of_ne_nil (hlong hc)
      have hnoSep := hsep (c :: d :: n) (hsplit ▸ List.mem_cons_self)
      exact ⟨List.cons_ne_nil _ _, fun hd => hnoSep (Option.some_inj.1 hd ▸ by simp)⟩
    rw [hds] at hfilter htrimmed ⊢
    refine ⟨fun h => hroot (Option.some_inj.1 h), ?_, ?_⟩
    · rw [components, components, split_of_ne hroot hddot, split_of_ne hroot hdot]
      exact congrArg (Prod.mk none) hfilter
    · rw [stripPrefix_nil, split_of_ne hroot hddot]
      exact congrArg some htrimmed

/-- Below the root, given as slashes, what is left of an absolute path goes back behind them. -/
theorem stripPrefix_root_back {body : List Char}
    (h : (join (body.splitOn '/')).dropWhile (· = '/') = rest) (hrest : rest ≠ [])
    (hslashes : ∀ c ∈ slashes, c = '/') :
    components ('/' :: (slashes ++ rest)) = components ('/' :: body) ∧
      stripPrefix ('/' :: (slashes ++ rest)) [] = some ('/' :: (slashes ++ rest)) := by
  have hsep : ∀ segment ∈ body.splitOn '/', '/' ∉ segment := notMem_of_mem_splitOn
  have hfront : ∀ c ∈ (join (body.splitOn '/')).takeWhile (· = '/'), c = '/' := fun c hc => by
    simpa using List.mem_takeWhile_imp hc
  have hjoin : (join (body.splitOn '/')).takeWhile (· = '/') ++ rest = join (body.splitOn '/') := by
    rw [← h, List.takeWhile_append_dropWhile]
  have hne : join (body.splitOn '/') ≠ [] := fun hnil => by
    rw [hnil] at h
    exact hrest h.symm
  have htrimmed : Trimmed rest := by
    rw [← trimmed_slashes hfront, hjoin]
    exact trimmed_join hsep hne
  constructor
  · show (some Head.rootDir, ((slashes ++ rest).splitOn '/').filter isName) =
      (some Head.rootDir, (body.splitOn '/').filter isName)
    rw [filter_splitOn_slashes hslashes, ← filter_splitOn_slashes hfront, hjoin,
      filter_splitOn_join hsep]
  · rw [stripPrefix_root, join_splitOn ((trimmed_slashes hslashes).2 htrimmed)]

end

end UnixPath
