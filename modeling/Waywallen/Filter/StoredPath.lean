import Waywallen.Filter.Ordered
import Waywallen.Library.UnixPrefix

/-!
# The path of a row and its resource

A row keeps the path of a resource below the root of its library. The entry that is read back from
the row has the root joined to that path as its resource, and the filters of the grid and of the
queue look for the path of that resource again. The root without its slashes at the end is empty for
the root directory, which then is above every resource.
-/

namespace Waywallen

open UnixPath

/-- The resource of the row `it` of a library at `root` goes there and back. -/
structure RoundTrips (root resource : String) (it : Item) : Prop where
  relative : it.path.toList.head? ≠ some '/'
  samePath : components (entryFromItem it root).resource.toList = components resource.toList
  key : relativeUnderRoot (entryFromItem it root).libraryRoot (entryFromItem it root).resource =
    some it.path

/-- The filters match the entry of the row exactly by the path of the row. -/
theorem RoundTrips.hasKey {root resource : String} {it : Item} (h : RoundTrips root resource it)
    (keys : List (String × String)) :
    (entryFromItem it root).hasKey keys = keys.contains (root, it.path) := by
  rw [LoadedEntry.hasKey, h.key]
  rfl

def isAbsolute (path : String) : Bool :=
  path.toList.head? = some '/'

section

variable {root resource : String} {it : Item}

theorem isAbsolute_eq_true : isAbsolute root = true ↔ root.toList.head? = some '/' :=
  decide_eq_true_iff

theorem toList_resource (it : Item) (root : String) :
    (entryFromItem it root).resource.toList = joinPath root.toList it.path.toList :=
  String.toList_ofList

/-- The path of a row: what is left of the resource, without slashes in front. -/
theorem exists_rest (h : relativeUnderRoot root resource = some it.path) :
    ∃ rest, stripPrefix resource.toList (root.toList.rdropWhile (· = '/')) = some rest ∧
      it.path.toList = rest.dropWhile (· = '/') := by
  obtain ⟨rest, hrest, heq⟩ := Option.map_eq_some_iff.1 h
  exact ⟨rest, hrest, by rw [← heq, String.toList_ofList]⟩

theorem relativeUnderRoot_eq_some {rel : String} (rest : List Char)
    (h : stripPrefix resource.toList (root.toList.rdropWhile (· = '/')) = some rest)
    (hrel : rest.dropWhile (· = '/') = rel.toList) : relativeUnderRoot root resource = some rel := by
  unfold relativeUnderRoot
  dsimp only
  rw [h, Option.map_some, hrel, String.ofList_toList]

theorem head?_path (h : relativeUnderRoot root resource = some it.path) :
    it.path.toList.head? ≠ some '/' := by
  obtain ⟨rest, -, hpath⟩ := exists_rest h
  rw [hpath]
  exact head?_dropWhile_slashes rest

/-- A root that is not made of slashes alone. -/
theorem roundTrips_of_ne (hroot : root.toList.rdropWhile (· = '/') ≠ [])
    (h : relativeUnderRoot root resource = some it.path) (hne : it.path.toList ≠ []) :
    RoundTrips root resource it := by
  obtain ⟨rest, hstrip, hpath⟩ := exists_rest h
  have hrest : rest ≠ [] := fun hnil => hne (by rw [hpath, hnil]; rfl)
  obtain ⟨hhead, hback⟩ := stripPrefix_back hroot hstrip hrest
  have hself : rest.dropWhile (· = '/') = rest := dropWhile_relative hhead
  rw [hself] at hpath
  obtain ⟨slashes, hslashes, hnil, hjoin⟩ := joinPath_rdropWhile root.toList hhead
  obtain ⟨c, slashes, rfl⟩ := List.exists_cons_of_ne_nil fun h => hroot (by rw [hnil h]; rfl)
  obtain rfl := hslashes c List.mem_cons_self
  obtain ⟨hsame, hagain⟩ := hback slashes fun c hc => hslashes c (List.mem_cons_of_mem _ hc)
  have hresource : (entryFromItem it root).resource.toList =
      root.toList.rdropWhile (· = '/') ++ '/' :: (slashes ++ rest) := by
    rw [toList_resource, hpath, hjoin, List.cons_append]
  refine ⟨head?_path h, by rw [hresource, hsame], relativeUnderRoot_eq_some rest ?_ ?_⟩
  · show stripPrefix _ (root.toList.rdropWhile (· = '/')) = some rest
    rw [hresource, hagain]
  · rw [hself, hpath]

/-- No root, and a resource that is not absolute. -/
theorem roundTrips_of_empty (hroot : root.toList = []) (hresource : resource.toList.head? ≠ some '/')
    (h : relativeUnderRoot root resource = some it.path) (hne : it.path.toList ≠ []) :
    RoundTrips root resource it := by
  obtain ⟨rest, hstrip, hpath⟩ := exists_rest h
  have hrest : rest ≠ [] := fun hnil => hne (by rw [hpath, hnil]; rfl)
  rw [hroot] at hstrip
  obtain ⟨hhead, hsame, hagain⟩ := stripPrefix_nil_back hresource hstrip hrest
  have hself : rest.dropWhile (· = '/') = rest := dropWhile_relative hhead
  rw [hself] at hpath
  have hresource : (entryFromItem it root).resource.toList = rest := by
    rw [toList_resource, hpath, hroot, joinPath, if_neg hhead]
    rfl
  refine ⟨head?_path h, by rw [hresource, hsame], relativeUnderRoot_eq_some rest ?_ ?_⟩
  · show stripPrefix _ (root.toList.rdropWhile (· = '/')) = some rest
    rw [hresource, hroot]
    exact hagain
  · rw [hself, hpath]

/-- The root directory, and an absolute resource. -/
theorem roundTrips_of_slashes (hroot : root.toList.rdropWhile (· = '/') = [])
    (hne : root.toList ≠ []) (hresource : resource.toList.head? = some '/')
    (h : relativeUnderRoot root resource = some it.path) (hpathne : it.path.toList ≠ []) :
    RoundTrips root resource it := by
  obtain ⟨body, hbody⟩ := List.head?_eq_some_iff.1 hresource
  obtain ⟨rest, hstrip, hpath⟩ := exists_rest h
  rw [hroot, hbody, stripPrefix_root] at hstrip
  obtain rfl := Option.some_inj.1 hstrip
  rw [List.dropWhile_cons_of_pos rfl] at hpath
  have hhead := head?_path h
  obtain ⟨slashes, hslashes, hnil, hjoin⟩ := joinPath_rdropWhile root.toList hhead
  obtain ⟨c, slashes, rfl⟩ := List.exists_cons_of_ne_nil fun h => hne (hnil h)
  obtain rfl := hslashes c List.mem_cons_self
  obtain ⟨hsame, hagain⟩ := stripPrefix_root_back hpath.symm hpathne
    fun c (hc : c ∈ slashes) => hslashes c (List.mem_cons_of_mem _ hc)
  have hresource : (entryFromItem it root).resource.toList =
      '/' :: (slashes ++ it.path.toList) := by
    rw [toList_resource, hjoin, hroot]
    rfl
  refine ⟨hhead, by rw [hresource, hsame, hbody], relativeUnderRoot_eq_some
    ('/' :: (slashes ++ it.path.toList)) ?_ ?_⟩
  · show stripPrefix _ (root.toList.rdropWhile (· = '/')) = _
    rw [hresource, hroot, hagain]
  · rw [List.dropWhile_cons_of_pos rfl, dropWhile_slashes
      (fun c hc => hslashes c (List.mem_cons_of_mem _ hc)) hhead]

/-- Both are absolute or neither is, if the resource goes there and back. -/
theorem RoundTrips.isAbsolute_iff (h : RoundTrips root resource it) :
    isAbsolute root = true ↔ isAbsolute resource = true := by
  have hheads : (split (entryFromItem it root).resource.toList).1 = (split resource.toList).1 :=
    (Prod.mk.inj h.samePath).1
  rw [isAbsolute_eq_true, isAbsolute_eq_true, ← head?_joinPath _ h.relative, ← toList_resource,
    ← head_eq_rootDir_iff, hheads, head_eq_rootDir_iff]

theorem roundTrips_iff (h : relativeUnderRoot root resource = some it.path) (hne : it.path ≠ "") :
    RoundTrips root resource it ↔ (isAbsolute root = true ↔ isAbsolute resource = true) := by
  refine ⟨fun h => h.isAbsolute_iff, fun hiff => ?_⟩
  have hne : it.path.toList ≠ [] := fun hnil => hne (String.toList_inj.1 hnil)
  rw [isAbsolute_eq_true, isAbsolute_eq_true] at hiff
  by_cases hroot : root.toList.rdropWhile (· = '/') = []
  · by_cases hempty : root.toList = []
    · refine roundTrips_of_empty hempty (fun hresource => ?_) h hne
      rw [hempty] at hiff
      cases hiff.2 hresource
    · obtain ⟨c, cs, hcs⟩ := List.exists_cons_of_ne_nil hempty
      have hc : c = '/' := by
        simpa using List.rdropWhile_eq_nil_iff.1 hroot c (hcs ▸ List.mem_cons_self)
      have hslash : root.toList.head? = some '/' := by rw [hcs, hc]; rfl
      exact roundTrips_of_slashes hroot hempty (hiff.1 hslash) h hne
  · exact roundTrips_of_ne hroot h hne

end

def pictureRow (path : String) : Item where
  id := 1
  pluginId := 1
  libraryId := 1
  path := path
  ty := "image"
  displayName := path
  previewPath := none
  description := none
  externalId := none
  size := none
  width := none
  height := none
  contentRating := none
  userPropertyOverrides := none
  wallpaperLayoutOverride := none
  createAt := 0
  updateAt := 0
  syncAt := 0
  probedAt := none
  modifiedAt := none
  statAt := none

/-- Slashes and dots in the middle do no harm. -/
theorem roundTrips_picture : RoundTrips "/w//" "/w/./b//c.png" (pictureRow "b//c.png") :=
  (roundTrips_iff (by decide) (by decide)).2 (by decide)

/-- A resource that is not absolute counts as a file of the root directory. -/
theorem not_roundTrips : ¬∀ (root resource : String) (it : Item),
    relativeUnderRoot root resource = some it.path → it.path ≠ "" → RoundTrips root resource it := by
  intro h
  have htrip := h "/" "c.png" (pictureRow "c.png") (by decide) (by decide)
  exact absurd htrip.isAbsolute_iff (by decide)

end Waywallen
