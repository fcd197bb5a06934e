import AccessoryController.Library.LittleEndian

/-!
# Readers of byte strings

A reader takes a value from the front of a byte string, or fails. It inverts a writer when it
takes a written value from the front of every string that starts with it; such pairs compose.

## Main definitions

* `Wire.Reader α`: readers, composed by the monad of state and failure
* `Wire.byte`, `Wire.word`, `Wire.dword`, `Wire.take n`: the primitive readers
* `Wire.many r n`, `Wire.all r`: `n` values in a row, and values up to the end
* `Wire.Reads r bytes a`: the reader takes `a` off `bytes`

## Main results

* `Reads.bind`: sequential composition
* `reads_many`, `all_of_reads`: repetition
-/

namespace Wire

open LittleEndian

/-- A reader of values from the front of a byte string. -/
abbrev Reader (α : Type) := StateT (List UInt8) Option α

variable {α β : Type}

def byte : Reader UInt8
  | [] => none
  | b :: rest => some (b, rest)

/-- A little-endian word of sixteen bits. -/
def word : Reader ℕ
  | low :: high :: rest => some (low.toNat + 2 ^ 8 * high.toNat, rest)
  | _ => none

/-- A little-endian word of thirty-two bits. -/
def dword : Reader ℕ
  | b₀ :: b₁ :: b₂ :: b₃ :: rest =>
    some (b₀.toNat + 2 ^ 8 * b₁.toNat + 2 ^ 16 * (b₂.toNat + 2 ^ 8 * b₃.toNat), rest)
  | _ => none

/-- The next `n` bytes. -/
def take (n : ℕ) : Reader (List UInt8) := fun bytes =>
  if n ≤ bytes.length then some (bytes.take n, bytes.drop n) else none

/-- The next `n` values. -/
def many (r : Reader α) : ℕ → Reader (List α)
  | 0 => pure []
  | n + 1 => do
    let a ← r
    let rest ← many r n
    pure (a :: rest)

/-- The values up to the end of the string, of which there are at most `fuel`. -/
def allUpTo (r : Reader α) : ℕ → List UInt8 → Option (List α)
  | _, [] => some []
  | 0, _ :: _ => none
  | fuel + 1, bytes => do
    let (a, rest) ← r bytes
    let values ← allUpTo r fuel rest
    pure (a :: values)

/-- The values up to the end of the string. -/
def all (r : Reader α) (bytes : List UInt8) : Option (List α) := allUpTo r bytes.length bytes

/-- The value of a string that a reader consumes to its end. -/
def whole (r : Reader α) (bytes : List UInt8) : Option α :=
  match r bytes with
  | some (a, []) => some a
  | _ => none

/-- The reader takes `a` off every string that starts with `bytes`. -/
def Reads (r : Reader α) (bytes : List UInt8) (a : α) : Prop :=
  ∀ rest, r (bytes ++ rest) = some (a, rest)

theorem reads_byte (b : UInt8) : Reads byte [b] b := fun _ => rfl

theorem reads_word {n : ℕ} (h : n < 2 ^ 16) : Reads word (u16 n) n := by
  intro rest
  have value : (UInt8.ofNat n).toNat + 2 ^ 8 * (UInt8.ofNat (n / 2 ^ 8)).toNat = n := by
    rw [UInt8.toNat_ofNat', UInt8.toNat_ofNat']
    omega
  show some (_, rest) = some (n, rest)
  rw [value]

theorem reads_dword {n : ℕ} (h : n < 2 ^ 32) : Reads dword (u32 n) n := by
  intro rest
  have value : (UInt8.ofNat n).toNat + 2 ^ 8 * (UInt8.ofNat (n / 2 ^ 8)).toNat +
      2 ^ 16 * ((UInt8.ofNat (n / 2 ^ 16)).toNat +
        2 ^ 8 * (UInt8.ofNat (n / 2 ^ 16 / 2 ^ 8)).toNat) = n := by
    simp only [UInt8.toNat_ofNat']
    omega
  show some (_, rest) = some (n, rest)
  rw [value]

theorem reads_take (bytes : List UInt8) : Reads (take bytes.length) bytes bytes := by
  intro rest
  have enough : bytes.length ≤ (bytes ++ rest).length := by
    rw [List.length_append]
    exact Nat.le_add_right _ _
  rw [take, if_pos enough, List.take_left, List.drop_left]

theorem reads_pure (a : α) : Reads (pure a) [] a := fun _ => rfl

/-- A value computed from what was read, without reading on. -/
theorem reads_lift {a : α} {value : Option α} (h : value = some a) :
    Reads (StateT.lift value) [] a := by
  subst h
  exact fun _ => rfl

variable {bytes : List UInt8} {r : Reader α}

/-- **Readers in sequence** read what was written in sequence. -/
theorem Reads.bind {f : α → Reader β} {bytes' : List UInt8} {a : α} {b : β}
    (first : Reads r bytes a) (second : Reads (f a) bytes' b) :
    Reads (r >>= f) (bytes ++ bytes') b := by
  intro rest
  show (r (bytes ++ bytes' ++ rest) >>= fun p => f p.1 p.2) = some (b, rest)
  rw [List.append_assoc, first]
  exact second rest

theorem Reads.congr {a b : α} (reads : Reads r bytes a) (same : a = b) :
    Reads r bytes b := same ▸ reads

/-- The last reader of a sequence, which only returns a value. -/
theorem Reads.map {f : α → β} {a : α} (reads : Reads r bytes a) :
    Reads (do let a ← r; pure (f a)) bytes (f a) := by
  have := reads.bind (f := fun a => (pure (f a) : Reader β)) (reads_pure (f a))
  rwa [List.append_nil] at this

/-- **Repetition**: values written in a row are read in a row. -/
theorem reads_many {X : Type} {write : X → List UInt8} {value : X → α} (l : List X)
    (h : ∀ x ∈ l, Reads r (write x) (value x)) :
    Reads (many r l.length) (l.flatMap write) (l.map value) := by
  induction l with
  | nil => exact reads_pure []
  | cons x l ih =>
    have first := h x List.mem_cons_self
    have later := ih fun y hy => h y (List.mem_cons_of_mem x hy)
    rw [List.flatMap_cons]
    exact first.bind later.map

theorem allUpTo_of_reads {X : Type} {write : X → List UInt8} {value : X → α} (l : List X)
    (h : ∀ x ∈ l, Reads r (write x) (value x) ∧ write x ≠ []) {fuel : ℕ}
    (enough : l.length ≤ fuel) :
    allUpTo r fuel (l.flatMap write) = some (l.map value) := by
  induction l generalizing fuel with
  | nil => cases fuel <;> rfl
  | cons x l ih =>
    obtain ⟨reads, nonempty⟩ := h x List.mem_cons_self
    obtain ⟨b, bytes, hwrite⟩ := List.exists_cons_of_ne_nil nonempty
    cases fuel with
    | zero => exact absurd enough (Nat.not_succ_le_zero _)
    | succ fuel =>
      have later := ih (fun y hy => h y (List.mem_cons_of_mem x hy)) (Nat.le_of_succ_le_succ enough)
      have step := reads (l.flatMap write)
      rw [List.flatMap_cons, hwrite, List.cons_append] at *
      show (r (b :: (bytes ++ l.flatMap write)) >>= fun p =>
        allUpTo r fuel p.2 >>= fun values => pure (p.1 :: values)) = _
      rw [step]
      show (allUpTo r fuel (l.flatMap write) >>= fun values => pure (value x :: values)) = _
      rw [later]
      rfl

theorem length_le_flatMap {X : Type} {write : X → List UInt8} (l : List X)
    (h : ∀ x ∈ l, write x ≠ []) : l.length ≤ (l.flatMap write).length := by
  induction l with
  | nil => exact Nat.le_refl 0
  | cons x l ih =>
    have first := List.length_pos_of_ne_nil (h x List.mem_cons_self)
    have later := ih fun y hy => h y (List.mem_cons_of_mem x hy)
    rw [List.flatMap_cons, List.length_append, List.length_cons]
    omega

/-- Values that were written up to the end are read up to the end. -/
theorem all_of_reads {X : Type} {write : X → List UInt8} {value : X → α} (l : List X)
    (h : ∀ x ∈ l, Reads r (write x) (value x) ∧ write x ≠ []) :
    all r (l.flatMap write) = some (l.map value) :=
  allUpTo_of_reads l h (length_le_flatMap l fun x hx => (h x hx).2)

theorem whole_of_reads {a : α} (reads : Reads r bytes a) : whole r bytes = some a := by
  have h := reads []
  rw [List.append_nil] at h
  rw [whole, h]

end Wire
