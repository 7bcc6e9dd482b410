import Mathlib.Data.List.Basic

/-!
# Readers of bytes

A reader consumes bytes from the front of its input. It may stop with an error of its own, or crash,
where the program would touch bytes that are not there. A scanner says what a format means: it
either finds a value or it does not. A reader `Reads` what a scanner finds when the two succeed
together, on inputs of at most `limit` bytes. A reader is `Safe` when it never crashes.
-/

universe u

inductive Stop (ε : Type)
  | error (e : ε)
  | crash
deriving DecidableEq

abbrev Reader (ε : Type) := StateT (List UInt8) (Except (Stop ε))

abbrev Scanner := StateT (List UInt8) Option

namespace Reader

variable {ε α : Type}

def fail (e : ε) : Reader ε α := fun _ => .error (.error e)

/-- The next `n` bytes, which have to be there. -/
def slice (n : ℕ) : Reader ε (List UInt8) := fun s =>
  if n ≤ s.length then .ok (s.take n, s.drop n) else .error .crash

/-- The byte at `i`, which has to be there. -/
def index (bytes : List UInt8) (i : ℕ) : Reader ε UInt8 := fun s =>
  match bytes[i]? with
  | some b => .ok (b, s)
  | none => .error .crash

/-- Fail unless `n` bytes are there. -/
def need (n : ℕ) (e : ε) : Reader ε Unit := fun s =>
  if n ≤ s.length then .ok ((), s) else .error (.error e)

/-- The byte at `i`, which has to be there and is not consumed. -/
def peek (i : ℕ) : Reader ε UInt8 := fun s =>
  match s[i]? with
  | some b => .ok (b, s)
  | none => .error .crash

/-- A copy of the next `n` bytes, which have to be there and are not consumed. -/
def copy (n : ℕ) : Reader ε (List UInt8) := fun s =>
  if n ≤ s.length then .ok (s.take n, s) else .error .crash

def advance (n : ℕ) : Reader ε Unit := fun s =>
  if n ≤ s.length then .ok ((), s.drop n) else .error .crash

def times : ℕ → Reader ε α → Reader ε (List α)
  | 0, _ => pure []
  | n + 1, r => do
    let x ← r
    let xs ← times n r
    return x :: xs

end Reader

namespace Scanner

variable {α : Type}

def take (n : ℕ) : Scanner (List UInt8) := fun s =>
  if n ≤ s.length then some (s.take n, s.drop n) else none

def times : ℕ → Scanner α → Scanner (List α)
  | 0, _ => pure []
  | n + 1, q => do
    let x ← q
    let xs ← times n q
    return x :: xs

end Scanner

/-! ## One thing after another -/

section

variable {ε α β : Type} {s s' : List UInt8} {b : β}

theorem Scanner.bind_eq_some {q : Scanner α} {k : α → Scanner β} :
    (q >>= k) s = some (b, s') ↔ ∃ a t, q s = some (a, t) ∧ k a t = some (b, s') := by
  change (q s).bind (fun x => k x.1 x.2) = _ ↔ _
  rcases q s with _ | ⟨a, t⟩ <;> simp

theorem Scanner.bind_of {q : Scanner α} {a : α} {t : List UInt8} (h : q s = some (a, t))
    (k : α → Scanner β) : (q >>= k) s = k a t := by
  change (q s).bind (fun x => k x.1 x.2) = _
  rw [h]
  rfl

theorem Scanner.pure_eq_some {a b : α} :
    (pure a : Scanner α) s = some (b, s') ↔ a = b ∧ s = s' := by
  change some (a, s) = _ ↔ _
  rw [Option.some.injEq, Prod.mk.injEq]

theorem Reader.bind_eq_ok {r : Reader ε α} {k : α → Reader ε β} :
    (r >>= k) s = .ok (b, s') ↔ ∃ a t, r s = .ok (a, t) ∧ k a t = .ok (b, s') := by
  change Except.bind (r s) (fun x => k x.1 x.2) = _ ↔ _
  rcases r s with e | ⟨a, t⟩ <;> simp [Except.bind]

theorem Reader.bind_of {r : Reader ε α} {a : α} {t : List UInt8} (h : r s = .ok (a, t))
    (k : α → Reader ε β) : (r >>= k) s = k a t := by
  change Except.bind (r s) (fun x => k x.1 x.2) = _
  rw [h]
  rfl

theorem Reader.bind_of_error {r : Reader ε α} {e : Stop ε} (h : r s = .error e)
    (k : α → Reader ε β) : (r >>= k) s = .error e := by
  change Except.bind (r s) (fun x => k x.1 x.2) = _
  rw [h]
  rfl

theorem Reader.pure_eq_ok {a b : α} :
    (pure a : Reader ε α) s = .ok (b, s') ↔ a = b ∧ s = s' := by
  change Except.ok (a, s) = _ ↔ _
  rw [Except.ok.injEq, Prod.mk.injEq]

theorem Reader.bind_eq_crash {r : Reader ε α} {k : α → Reader ε β} :
    (r >>= k) s = .error .crash ↔
      r s = .error .crash ∨ ∃ a t, r s = .ok (a, t) ∧ k a t = .error .crash := by
  change Except.bind (r s) (fun x => k x.1 x.2) = _ ↔ _
  rcases r s with e | ⟨a, t⟩ <;> simp [Except.bind]

end

/-! ## How much is consumed -/

namespace Scanner

variable {α β : Type}

/-- What the scanner finds takes at least `n` bytes. -/
def Consumes (q : Scanner α) (n : ℕ) : Prop :=
  ∀ s a s', q s = some (a, s') → s'.length + n ≤ s.length

theorem Consumes.mono {q : Scanner α} {n m : ℕ} (h : q.Consumes n) (hm : m ≤ n) : q.Consumes m :=
  fun s a s' hs => Nat.le_trans (Nat.add_le_add_left hm _) (h s a s' hs)

theorem consumes_pure (a : α) : (pure a : Scanner α).Consumes 0 := by
  intro s b s' h
  obtain ⟨-, rfl⟩ := Scanner.pure_eq_some.1 h
  exact Nat.le_refl _

theorem Consumes.bind {q : Scanner α} {k : α → Scanner β} {n m : ℕ} (hq : q.Consumes n)
    (hk : ∀ a, (k a).Consumes m) : (q >>= k).Consumes (n + m) := by
  intro s b s' h
  obtain ⟨a, t, ha, hb⟩ := Scanner.bind_eq_some.1 h
  have := hq s a t ha
  have := hk a t b s' hb
  omega

theorem consumes_take (n : ℕ) : (take n).Consumes n := by
  intro s a s' h
  unfold take at h
  split_ifs at h with hn
  obtain ⟨-, rfl⟩ := Prod.mk.inj (Option.some.inj h)
  rw [List.length_drop]
  omega

theorem Consumes.times {q : Scanner α} {n : ℕ} (h : q.Consumes n) (k : ℕ) :
    (times k q).Consumes (k * n) := by
  induction k with
  | zero =>
    rw [Nat.zero_mul]
    exact consumes_pure []
  | succ k ih =>
    rw [Nat.succ_mul, Nat.add_comm (k * n)]
    exact h.bind fun x => ih.bind fun xs => consumes_pure (x :: xs)

end Scanner

/-! ## Readers that never crash -/

/-- The reader touches no byte that is not there, whatever the input is. -/
def Reader.Safe {ε α : Type} (r : Reader ε α) : Prop := ∀ s, r s ≠ .error .crash

namespace Reader.Safe

variable {ε α β : Type}

theorem pure (a : α) : (Pure.pure a : Reader ε α).Safe := by
  rintro s ⟨⟩

theorem fail (e : ε) : (Reader.fail e : Reader ε α).Safe := by
  rintro s ⟨⟩

theorem bind {r : Reader ε α} {k : α → Reader ε β} (h : r.Safe) (hk : ∀ a, (k a).Safe) :
    (r >>= k).Safe := by
  intro s hcrash
  rcases Reader.bind_eq_crash.1 hcrash with hcrash | ⟨a, t, -, hcrash⟩
  · exact h s hcrash
  · exact hk a t hcrash

theorem need_slice (n : ℕ) (e : ε) : (do Reader.need n e; Reader.slice n : Reader ε _).Safe := by
  intro s hcrash
  rcases Reader.bind_eq_crash.1 hcrash with hcrash | ⟨_, t, hr, hcrash⟩
  · unfold Reader.need at hcrash
    split_ifs at hcrash
    cases hcrash
  · unfold Reader.need at hr
    split_ifs at hr with hn
    obtain ⟨-, rfl⟩ := Prod.mk.inj (Except.ok.inj hr)
    simp [Reader.slice, hn] at hcrash

theorem times {r : Reader ε α} (h : r.Safe) (n : ℕ) : (Reader.times n r).Safe := by
  induction n with
  | zero => exact .pure []
  | succ n ih => exact h.bind fun x => ih.bind fun xs => .pure (x :: xs)

end Reader.Safe

/-! ## Readers of a format -/

/-- The reader finds what the scanner finds, up to `f`. -/
structure Reads {ε α β : Type} (limit : ℕ) (r : Reader ε α) (f : α → β) (q : Scanner β) : Prop where
  iff : ∀ s, s.length ≤ limit → ∀ a s', r s = .ok (a, s') ↔ q s = some (f a, s')
  shrinks : q.Consumes 0

namespace Reads

variable {ε α β α' β' γ γ' : Type} {limit : ℕ} {r : Reader ε α} {f : α → β} {q : Scanner β}

theorem length_le (h : Reads limit r f q) {s s' : List UInt8} {a : α} (hs : s.length ≤ limit)
    (hr : r s = .ok (a, s')) : s'.length ≤ limit :=
  Nat.le_trans (h.shrinks s _ s' ((h.iff s hs a s').1 hr)) hs

/-- A value that both read the same way decides what is read next. -/
theorem bind {r : Reader ε β} {k : β → Reader ε γ} {g : γ → γ'} {k' : β → Scanner γ'}
    (h : Reads limit r id q) (hk : ∀ b, Reads limit (k b) g (k' b)) :
    Reads limit (r >>= k) g (q >>= k') where
  iff s hs c s' := by
    rw [Reader.bind_eq_ok, Scanner.bind_eq_some]
    constructor
    · rintro ⟨b, t, hr, hc⟩
      exact ⟨b, t, (h.iff s hs b t).1 hr, ((hk b).iff t (h.length_le hs hr) c s').1 hc⟩
    · rintro ⟨b, t, hq, hc⟩
      have hr := (h.iff s hs b t).2 hq
      exact ⟨b, t, hr, ((hk b).iff t (h.length_le hs hr) c s').2 hc⟩
  shrinks := h.shrinks.bind fun b => (hk b).shrinks

/-- Two values one after the other, put together by `c`; what is put together can be taken apart. -/
theorem seq {r' : Reader ε α'} {f' : α' → β'} {q' : Scanner β'} {c : α → α' → γ}
    {c' : β → β' → γ'} {g : γ → γ'} (h : Reads limit r f q) (h' : Reads limit r' f' q')
    (hc : ∀ b b' z, c' b b' = g z ↔ ∃ a a', c a a' = z ∧ f a = b ∧ f' a' = b') :
    Reads limit (do let a ← r; let a' ← r'; return c a a') g
      (do let b ← q; let b' ← q'; return c' b b') where
  iff s hs z s' := by
    rw [Reader.bind_eq_ok, Scanner.bind_eq_some]
    simp only [Reader.bind_eq_ok, Scanner.bind_eq_some, Reader.pure_eq_ok, Scanner.pure_eq_some]
    constructor
    · rintro ⟨a, t, hr, a', t', hr', rfl, rfl⟩
      exact ⟨f a, t, (h.iff s hs a t).1 hr, f' a', t',
        (h'.iff t (h.length_le hs hr) a' t').1 hr', (hc _ _ _).2 ⟨a, a', rfl, rfl, rfl⟩, rfl⟩
    · rintro ⟨b, t, hq, b', t', hq', hz, rfl⟩
      obtain ⟨a, a', rfl, rfl, rfl⟩ := (hc b b' z).1 hz
      have hr := (h.iff s hs a t).2 hq
      exact ⟨a, t, hr, a', t', (h'.iff t (h.length_le hs hr) a' t').2 hq', rfl, rfl⟩
  shrinks := h.shrinks.bind fun b => h'.shrinks.bind fun b' => Scanner.consumes_pure _

theorem map {c : α → γ} {c' : β → γ'} {g : γ → γ'} (h : Reads limit r f q)
    (hc : ∀ b z, c' b = g z ↔ ∃ a, c a = z ∧ f a = b) :
    Reads limit (do let a ← r; return c a) g (do let b ← q; return c' b) where
  iff s hs z s' := by
    rw [Reader.bind_eq_ok, Scanner.bind_eq_some]
    simp only [Reader.pure_eq_ok, Scanner.pure_eq_some]
    constructor
    · rintro ⟨a, t, hr, rfl, rfl⟩
      exact ⟨f a, t, (h.iff s hs a t).1 hr, (hc _ _).2 ⟨a, rfl, rfl⟩, rfl⟩
    · rintro ⟨b, t, hq, hz, rfl⟩
      obtain ⟨a, rfl, rfl⟩ := (hc b z).1 hz
      exact ⟨a, t, (h.iff s hs a t).2 hq, rfl, rfl⟩
  shrinks := h.shrinks.bind fun b => Scanner.consumes_pure _

/-- A value that both read the same way, put into another form. -/
theorem wrap {r : Reader ε β} {c : β → γ} {c' : β → γ'} {g : γ → γ'} (h : Reads limit r id q)
    (hc : ∀ b z, c' b = g z ↔ c b = z) :
    Reads limit (do let a ← r; return c a) g (do let b ← q; return c' b) :=
  h.map fun b z => (hc b z).trans ⟨fun hz => ⟨b, hz, rfl⟩, by rintro ⟨_, hz, rfl⟩; exact hz⟩

theorem nil : Reads limit (pure [] : Reader ε (List α)) (List.map f) (pure []) where
  iff s _ xs s' := by
    rw [Reader.pure_eq_ok, Scanner.pure_eq_some]
    simp [eq_comm]
  shrinks := Scanner.consumes_pure []

theorem times (h : Reads limit r f q) (n : ℕ) :
    Reads limit (Reader.times n r) (List.map f) (Scanner.times n q) := by
  induction n with
  | zero => exact nil
  | succ n ih =>
    refine h.seq ih fun b bs zs => ⟨fun hz => ?_, ?_⟩
    · cases zs with
      | nil => cases hz
      | cons z zs =>
        obtain ⟨rfl, rfl⟩ := List.cons.inj hz
        exact ⟨z, zs, rfl, rfl, rfl⟩
    · rintro ⟨a, as, rfl, rfl, rfl⟩
      rfl

/-- Where nothing can be found, a reader may fail. -/
theorem fail {e : ε} (hq : ∀ s, s.length ≤ limit → q s = none) (hshrinks : q.Consumes 0) :
    Reads limit (Reader.fail e : Reader ε α) f q where
  iff s hs _ a := by
    rw [hq s hs]
    exact ⟨by rintro ⟨⟩, by rintro ⟨⟩⟩
  shrinks := hshrinks

/-- Bytes that are checked to be there. -/
theorem need_slice (n : ℕ) (e : ε) :
    Reads limit (do Reader.need n e; Reader.slice n) id (Scanner.take n) where
  iff s _ a s' := by
    rw [Reader.bind_eq_ok]
    by_cases hn : n ≤ s.length
    · simp [Reader.need, Reader.slice, Scanner.take, hn]
    · simp [Reader.need, Scanner.take, hn]
  shrinks := (Scanner.consumes_take n).mono (Nat.zero_le n)

end Reads
