import Mathlib.Data.Int.Order.Basic
import Waywallen.Library.Ranked
import Waywallen.Renderer.Handle

/-!
# The display backend

Manifests are read directory by directory, and one read later replaces the one of its name. A list
is kept sorted by priority; sorted once more with the backends that are built in, it is searched for
the backend of the desktop. That takes the one of the highest priority that fits, the first one read
if there are several, and in a KDE session only among those for KDE.
-/

namespace Waywallen

open Ranked

inductive SpawnMode where
  | daemon
  | external
  deriving DecidableEq

structure DisplayDef where
  name : String
  bin : String := ""
  de : List String := []
  priority : ℤ := 100
  requires : List String := []
  extraArgs : List String := []
  spawn : SpawnMode := .daemon
  deriving DecidableEq

/-- The tokens of the desktop, in lower case, and the globals that were probed. -/
structure DeCaps where
  xdgDesktop : List String
  probedGlobals : List String

inductive PickOutcome where
  | kdeHardMatch (d : DisplayDef)
  | matched (d : DisplayDef)
  | none

/-! ## Manifests -/

def sortByPriority (defs : List DisplayDef) : List DisplayDef :=
  defs.insertionSort fun a b => b.priority ≤ a.priority

def register (defs : List DisplayDef) (d : DisplayDef) : List DisplayDef :=
  sortByPriority (defs.filter (·.name ≠ d.name) ++ [d])

/-- The manifests of a directory, in the order in which they are read. -/
def scanDisplays (manifests : List DisplayDef) : List DisplayDef := manifests.foldl register []

def buildRegistry (dirs : List (List DisplayDef)) : List DisplayDef :=
  dirs.foldl (fun defs manifests => (scanDisplays manifests).foldl register defs) []

/-! ## Picking a backend -/

def isKde (caps : DeCaps) : Bool := caps.xdgDesktop.any (· = "kde")

/-- The backends that come with the daemon; the binary of the second is looked for beside it. -/
def builtinDisplayDefs (layerShellBin : String) : List DisplayDef :=
  [{ name := "kde-plasma", de := ["kde"], spawn := .external },
    { name := "layer-shell"
      bin := layerShellBin
      de := ["hyprland", "sway", "niri", "river"]
      priority := 50
      requires := ["wlr-layer-shell", "linux-dmabuf-v4"] }]

def addBuiltin (defs : List DisplayDef) (builtin : DisplayDef) : List DisplayDef :=
  if defs.any (·.name = builtin.name) then defs else defs ++ [builtin]

def allDefs (reg : List DisplayDef) (layerShellBin : String) : List DisplayDef :=
  sortByPriority ((builtinDisplayDefs layerShellBin).foldl addBuiltin reg)

def targetsKde (d : DisplayDef) : Bool := d.de.any (eqIgnoreAsciiCase · "kde")

def deMatches (caps : DeCaps) (d : DisplayDef) : Bool :=
  d.de.isEmpty || d.de.any (· = "*") ||
    d.de.any fun want => caps.xdgDesktop.any (eqIgnoreAsciiCase · want)

/-- The backend is for the desktop, which is not KDE, and what it requires was not found missing. -/
def applicable (caps : DeCaps) (d : DisplayDef) : Bool :=
  deMatches caps d && !(targetsKde d && !d.de.any (· = "*")) &&
    (d.requires.isEmpty || caps.probedGlobals.isEmpty ||
      d.requires.all fun r => caps.probedGlobals.any (· = r))

def pickBackend (reg : List DisplayDef) (layerShellBin : String) (caps : DeCaps) : PickOutcome :=
  if isKde caps then
    match (allDefs reg layerShellBin).find? targetsKde with
    | some d => .kdeHardMatch d
    | none => .none
  else
    match (allDefs reg layerShellBin).foldl
        (keepBest DisplayDef.priority (applicable caps)) none with
    | some d => .matched d
    | none => .none

def shouldDaemonSpawn : PickOutcome → Bool
  | .kdeHardMatch d | .matched d => d.spawn = .daemon
  | .none => false

def toSpawn (pick : PickOutcome) : Option DisplayDef :=
  match pick with
  | .kdeHardMatch d | .matched d => if shouldDaemonSpawn pick then some d else none
  | .none => none

/-- What the daemon starts: the backend that was asked for by name, if there is a manifest of it, or
the one that is picked. -/
def displayBackend (noDisplay : Bool) (pinned : Option String) (reg : List DisplayDef)
    (layerShellBin : String) (caps : DeCaps) : Option DisplayDef :=
  if noDisplay then none
  else
    match pinned.bind fun name => reg.find? (·.name = name) with
    | some d => toSpawn (.matched d)
    | none => toSpawn (pickBackend reg layerShellBin caps)

/-! ## What the manifests come to -/

/-- Of the manifests of one name, the last one counts. -/
def lastNamed : List DisplayDef → List DisplayDef
  | [] => []
  | d :: l => if l.any (·.name = d.name) then lastNamed l else d :: lastNamed l

/-- The manifests that count, and the backends that are built in of which there is none. -/
def candidates (manifests : List DisplayDef) (layerShellBin : String) : List DisplayDef :=
  lastNamed manifests ++
    (builtinDisplayDefs layerShellBin).filter fun b => !manifests.any (·.name = b.name)

section Manifests

variable {reg l m : List DisplayDef} {d : DisplayDef}

theorem any_name_iff {name : String} : (l.any (·.name = name)) = true ↔ ∃ d ∈ l, d.name = name := by
  simp [List.any_eq_true]

theorem lastNamed_append (l m : List DisplayDef) : lastNamed (l ++ m) =
    (lastNamed l).filter (fun d => !m.any (·.name = d.name)) ++ lastNamed m := by
  induction l with
  | nil => rfl
  | cons d l ih =>
    rw [List.cons_append, lastNamed, lastNamed, List.any_append, ih]
    cases hl : l.any (·.name = d.name) with
    | true => rfl
    | false => cases hm : m.any (·.name = d.name) <;> simp [hm]

theorem lastNamed_subset : lastNamed l ⊆ l := by
  induction l with
  | nil => exact List.Subset.refl _
  | cons d l ih =>
    rw [lastNamed]
    split
    · exact List.Subset.trans ih (List.subset_cons_self _ _)
    · exact List.cons_subset_cons _ ih

theorem any_lastNamed (l : List DisplayDef) (name : String) :
    (lastNamed l).any (·.name = name) = l.any (·.name = name) := by
  induction l with
  | nil => rfl
  | cons d l ih =>
    rw [lastNamed, List.any_cons]
    split
    · rename_i hd
      rw [ih]
      by_cases hname : d.name = name
      · rw [← hname, hd, Bool.or_true]
      · simp [hname]
    · rw [List.any_cons, ih]

theorem nodup_lastNamed (l : List DisplayDef) : ((lastNamed l).map DisplayDef.name).Nodup := by
  induction l with
  | nil => exact .nil
  | cons d l ih =>
    rw [lastNamed]
    split
    · exact ih
    · rename_i hd
      refine List.nodup_cons.2 ⟨fun hmem => hd ?_, ih⟩
      obtain ⟨d', hd', hname⟩ := List.mem_map.1 hmem
      exact any_name_iff.2 ⟨d', lastNamed_subset hd', hname⟩

theorem lastNamed_eq_self (h : (l.map DisplayDef.name).Nodup) : lastNamed l = l := by
  induction l with
  | nil => rfl
  | cons d l ih =>
    obtain ⟨hd, hl⟩ := List.nodup_cons.1 h
    have hany : ¬ (l.any (·.name = d.name)) = true := fun hany => by
      obtain ⟨d', hd', hname⟩ := any_name_iff.1 hany
      exact hd (List.mem_map.2 ⟨d', hd', hname⟩)
    rw [lastNamed, if_neg hany, ih hl]

/-- What a list of manifests is, whatever it was sorted by. -/
def Amounts (reg l : List DisplayDef) : Prop := SameRanks DisplayDef.priority reg (lastNamed l)

theorem amounts_nil : Amounts [] [] := .refl []

theorem Amounts.any_eq (h : Amounts reg l) (name : String) :
    reg.any (·.name = name) = l.any (·.name = name) := by
  rw [← any_lastNamed l, Bool.eq_iff_iff, any_name_iff, any_name_iff]
  simp only [h.perm.mem_iff]

theorem Amounts.register (h : Amounts reg l) (d : DisplayDef) :
    Amounts (register reg d) (l ++ [d]) := by
  have hlast : lastNamed (l ++ [d]) = (lastNamed l).filter (·.name ≠ d.name) ++ [d] := by
    rw [lastNamed_append]
    congr 1
    refine List.filter_congr fun d' _ => ?_
    simp [eq_comm]
  rw [Amounts, hlast]
  exact (SameRanks.insertionSort _).trans ((h.filter _).append (.refl _))

theorem Amounts.foldl_register (h : Amounts reg l) (m : List DisplayDef) :
    Amounts (m.foldl Waywallen.register reg) (l ++ m) := by
  induction m generalizing reg l with
  | nil =>
    rw [List.append_nil]
    exact h
  | cons d m ih =>
    rw [List.append_cons]
    exact ih (h.register d)

theorem amounts_scanDisplays (manifests : List DisplayDef) :
    Amounts (scanDisplays manifests) manifests :=
  amounts_nil.foldl_register manifests

/-- Registering what a directory comes to is registering its manifests. -/
theorem Amounts.scanned (h : Amounts reg l) (manifests : List DisplayDef) :
    Amounts ((scanDisplays manifests).foldl Waywallen.register reg) (l ++ manifests) := by
  have hscan := amounts_scanDisplays manifests
  have hnodup : ((scanDisplays manifests).map DisplayDef.name).Nodup :=
    (hscan.perm.map _).nodup_iff.2 (nodup_lastNamed manifests)
  refine (h.foldl_register (scanDisplays manifests)).trans ?_
  rw [lastNamed_append, lastNamed_append, lastNamed_eq_self hnodup]
  simp only [hscan.any_eq]
  exact SameRanks.append (.refl _) hscan

theorem amounts_buildRegistry (dirs : List (List DisplayDef)) :
    Amounts (buildRegistry dirs) dirs.flatten := by
  have hfold (dirs : List (List DisplayDef)) : ∀ {reg l}, Amounts reg l →
      Amounts (dirs.foldl (fun defs manifests => (scanDisplays manifests).foldl register defs) reg)
        (l ++ dirs.flatten) := by
    induction dirs with
    | nil =>
      intro reg l h
      rw [List.flatten_nil, List.append_nil]
      exact h
    | cons manifests dirs ih =>
      intro reg l h
      rw [List.flatten_cons, ← List.append_assoc]
      exact ih (h.scanned manifests)
  exact hfold dirs amounts_nil

/-- Backends that are built in come behind the manifests, unless there is one of their name. -/
theorem foldl_addBuiltin (reg : List DisplayDef) {bs : List DisplayDef}
    (hbs : (bs.map DisplayDef.name).Nodup) :
    bs.foldl addBuiltin reg = reg ++ bs.filter fun b => !reg.any (·.name = b.name) := by
  induction bs generalizing reg with
  | nil => exact (List.append_nil reg).symm
  | cons b bs ih =>
    obtain ⟨hb, hbs⟩ := List.nodup_cons.1 hbs
    rw [List.foldl_cons, addBuiltin, List.filter_cons]
    cases hreg : reg.any (·.name = b.name) with
    | true =>
      rw [if_pos rfl, ih reg hbs]
      rfl
    | false =>
      rw [if_neg Bool.false_ne_true, ih _ hbs, List.append_assoc]
      refine congrArg (reg ++ b :: ·) (List.filter_congr fun b' hb' => ?_)
      have hne : b.name ≠ b'.name := fun hname => hb (hname ▸ List.mem_map_of_mem hb')
      rw [List.any_append, List.any_cons, List.any_nil, decide_eq_false hne, Bool.or_false,
        Bool.or_false]

theorem Amounts.allDefs (h : Amounts reg l) (layerShellBin : String) :
    SameRanks DisplayDef.priority (allDefs reg layerShellBin) (candidates l layerShellBin) := by
  have hnames : ((builtinDisplayDefs layerShellBin).map DisplayDef.name).Nodup := by
    rw [show (builtinDisplayDefs layerShellBin).map DisplayDef.name = ["kde-plasma", "layer-shell"]
      from rfl]
    decide
  refine (SameRanks.insertionSort _).trans ?_
  rw [foldl_addBuiltin reg hnames, candidates]
  simp only [h.any_eq]
  exact SameRanks.append h (.refl _)

end Manifests

/-- The best of the manifests that count and the backends that are built in: in a KDE session of
those for KDE, otherwise of those that apply. -/
def Picked (dirs : List (List DisplayDef)) (layerShellBin : String) (caps : DeCaps)
    (d : DisplayDef) : Prop :=
  Best DisplayDef.priority (fun d => (if isKde caps then targetsKde d else applicable caps d) = true)
    (candidates dirs.flatten layerShellBin) d

def PickOutcome.picked : PickOutcome → Option DisplayDef
  | .kdeHardMatch d | .matched d => some d
  | .none => Option.none

theorem toSpawn_eq_some {pick : PickOutcome} {d : DisplayDef} :
    toSpawn pick = some d ↔ pick.picked = some d ∧ d.spawn = .daemon := by
  have hspawn (d' : DisplayDef) : (if d'.spawn = .daemon then some d' else none) = some d ↔
      some d' = some d ∧ d.spawn = .daemon := by
    rw [Option.ite_none_right_eq_some, and_comm]
    exact and_congr_right fun h => by rw [Option.some_inj.1 h]
  cases pick with
  | kdeHardMatch d' => simpa [toSpawn, shouldDaemonSpawn, PickOutcome.picked] using hspawn d'
  | matched d' => simpa [toSpawn, shouldDaemonSpawn, PickOutcome.picked] using hspawn d'
  | none => simp [toSpawn, PickOutcome.picked]

section Pick

variable (dirs : List (List DisplayDef)) (layerShellBin : String) (caps : DeCaps)

theorem pickBackend_spec : (pickBackend (buildRegistry dirs) layerShellBin caps).picked.elim
    (∀ d ∈ candidates dirs.flatten layerShellBin,
      (if isKde caps then targetsKde d else applicable caps d) = false)
    (Picked dirs layerShellBin caps) := by
  have hsame := (amounts_buildRegistry dirs).allDefs layerShellBin
  have hsorted := pairwise_insertionSort_rank DisplayDef.priority
    ((builtinDisplayDefs layerShellBin).foldl addBuiltin (buildRegistry dirs))
  unfold Picked
  rw [pickBackend]
  cases isKde caps with
  | true =>
    simp only [if_true]
    cases hfind : (allDefs (buildRegistry dirs) layerShellBin).find? targetsKde with
    | none =>
      intro d hd
      exact Bool.eq_false_iff.2 (List.find?_eq_none.1 hfind d (hsame.perm.mem_iff.2 hd))
    | some d => exact (Best.of_find? hsorted hfind).congr hsame
  | false =>
    simp only [Bool.false_eq_true, if_false]
    have hfold := foldl_keepBest DisplayDef.priority (applicable caps)
      (allDefs (buildRegistry dirs) layerShellBin)
    cases hbest : (allDefs (buildRegistry dirs) layerShellBin).foldl
        (keepBest DisplayDef.priority (applicable caps)) none with
    | none =>
      rw [hbest] at hfold
      intro d hd
      exact hfold d (hsame.perm.mem_iff.2 hd)
    | some d =>
      rw [hbest] at hfold
      have hd : Best DisplayDef.priority (applicable caps · = true) _ d := hfold
      exact hd.congr hsame

variable {dirs layerShellBin caps} {d : DisplayDef}

theorem picked_iff : (pickBackend (buildRegistry dirs) layerShellBin caps).picked = some d ↔
    Picked dirs layerShellBin caps d := by
  have hspec := pickBackend_spec dirs layerShellBin caps
  cases hpick : (pickBackend (buildRegistry dirs) layerShellBin caps).picked with
  | none =>
    rw [hpick] at hspec
    constructor
    · intro h
      cases h
    · exact fun h => absurd h.holds (Bool.eq_false_iff.1 (hspec d h.mem))
  | some d' =>
    rw [hpick] at hspec
    have hd' : Picked dirs layerShellBin caps d' := hspec
    exact ⟨fun h => Option.some_inj.1 h ▸ hd', fun h => congrArg some (hd'.unique h)⟩

/-- A manifest is found by its name, the last one of the name. -/
theorem find?_buildRegistry {name : String} :
    (buildRegistry dirs).find? (·.name = name) = some d ↔
      d ∈ lastNamed dirs.flatten ∧ d.name = name := by
  have hamounts := amounts_buildRegistry dirs
  have hnodup : ((buildRegistry dirs).map DisplayDef.name).Nodup :=
    (hamounts.perm.map _).nodup_iff.2 (nodup_lastNamed dirs.flatten)
  rw [← hamounts.perm.mem_iff]
  constructor
  · exact fun h => ⟨List.mem_of_find?_eq_some h, by simpa using List.find?_some h⟩
  · rintro ⟨hd, hname⟩
    cases hfind : (buildRegistry dirs).find? (·.name = name) with
    | none => exact absurd hname (by simpa using List.find?_eq_none.1 hfind d hd)
    | some d' =>
      have hname' : d'.name = name := by simpa using List.find?_some hfind
      exact congrArg some (List.inj_on_of_nodup_map hnodup (List.mem_of_find?_eq_some hfind) hd
        (hname'.trans hname.symm))

end Pick

/-- However manifests are spread over directories, and whatever the desktop is, the daemon starts a
backend that it is to start itself: the last manifest of the name that was asked for, and where
there is no such manifest, the best one for the desktop. -/
theorem starts (dirs : List (List DisplayDef)) (layerShellBin : String) (caps : DeCaps)
    (noDisplay : Bool) (pinned : Option String) (d : DisplayDef) :
    displayBackend noDisplay pinned (buildRegistry dirs) layerShellBin caps = some d ↔
      noDisplay = false ∧ d.spawn = .daemon ∧
        (d ∈ lastNamed dirs.flatten ∧ pinned = some d.name ∨
          (∀ name ∈ pinned, ∀ m ∈ dirs.flatten, m.name ≠ name) ∧
            Picked dirs layerShellBin caps d) := by
  rw [displayBackend]
  cases noDisplay with
  | true => simp
  | false =>
    simp only [Bool.false_eq_true, if_false, true_and]
    cases hfind : pinned.bind fun name => (buildRegistry dirs).find? (·.name = name) with
    | none =>
      have hnone : ∀ name ∈ pinned, ∀ m ∈ dirs.flatten, m.name ≠ name := by
        rintro name rfl m hm hname
        have hany := (amounts_buildRegistry dirs).any_eq name
        rw [any_name_iff.2 ⟨m, hm, hname⟩] at hany
        obtain ⟨m', hm', hname'⟩ := any_name_iff.1 hany
        exact absurd hname' (by simpa using List.find?_eq_none.1 hfind m' hm')
      rw [toSpawn_eq_some, picked_iff]
      constructor
      · exact fun ⟨hpicked, hspawn⟩ => ⟨hspawn, .inr ⟨hnone, hpicked⟩⟩
      · rintro ⟨hspawn, ⟨hd, hname⟩ | ⟨-, hpicked⟩⟩
        · exact absurd rfl (hnone d.name hname d (lastNamed_subset hd))
        · exact ⟨hpicked, hspawn⟩
    | some m =>
      obtain ⟨name, hname, hfind⟩ := Option.bind_eq_some_iff.1 hfind
      obtain ⟨hm, rfl⟩ := find?_buildRegistry.1 hfind
      rw [toSpawn_eq_some]
      constructor
      · rintro ⟨⟨⟩, hspawn⟩
        exact ⟨hspawn, .inl ⟨hm, hname⟩⟩
      · rintro ⟨hspawn, ⟨hd, hpinned⟩ | ⟨hnone, -⟩⟩
        · have heq := find?_buildRegistry.2 ⟨hd, (Option.some_inj.1 (hpinned.symm.trans hname))⟩
          exact ⟨hfind.symm.trans heq, hspawn⟩
        · exact absurd rfl (hnone m.name hname m (lastNamed_subset hm))

end Waywallen
