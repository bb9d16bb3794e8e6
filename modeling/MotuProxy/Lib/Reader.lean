import MotuProxy.Lib.Bytes

/-! # Readers of byte strings

A reader consumes a prefix of its input. `Reads r enc a` says that `r` reads `a` off `enc`, whatever
follows it, and has a rule for each combinator: a format that is written with them is uniquely
decodable.
-/

namespace MotuProxy

abbrev Reader := StateT Bytes Option

namespace Reader

/-- The next `n` bytes. -/
def bytes (n : Nat) : Reader Bytes := fun input =>
  if n ≤ input.length then some (input.take n, input.drop n) else none

/-- The next word of `w` bytes. -/
def word (w : Nat) : Reader Nat := do return leNat (← bytes w)

/-- Fails unless the condition holds. -/
def require (c : Prop) [Decidable c] : Reader Unit := fun input => if c then some ((), input) else none

def expect (data : Bytes) : Reader Unit := do require ((← bytes data.length) = data)

/-- `r` on the next `n` bytes, all of which it has to consume. -/
def within (n : Nat) (r : Reader α) : Reader α := do
  match r (← bytes n) with
  | some (a, []) => return a
  | _ => failure

/-- `r` on a part whose length stands before it, in four bytes. -/
def sized (r : Reader α) : Reader α := do within (← word 4) r

/-- A byte string with its length before it. -/
def blob : Reader Bytes := do bytes (← word 4)

/-- `r`, `n` times. -/
def times (r : Reader α) : Nat → Reader (List α)
  | 0 => pure []
  | n + 1 => do return (← r) :: (← times r n)

/-- `r` consumes `enc`, whatever follows, and returns `a`. -/
def Reads (r : Reader α) (enc : Bytes) (a : α) : Prop := ∀ rest, r (enc ++ rest) = some (a, rest)

namespace Reads

theorem pure {a : α} : Reads (pure a) [] a := fun _ => rfl

theorem bind {f : α → Reader β} (hr : Reads r enc a) (hf : Reads (f a) enc' b) :
    Reads (r >>= f) (enc ++ enc') b := by
  intro rest
  change (r (enc ++ enc' ++ rest)).bind (fun p => f p.1 p.2) = _
  rw [List.append_assoc, hr, Option.bind_some, hf]

/-- A reader that ends with a return. -/
theorem map {f : α → β} (hr : Reads r enc a) : Reads (do return f (← r)) enc (f a) := by
  have := bind (f := fun a => Pure.pure (f a)) hr (pure (a := f a))
  rwa [List.append_nil] at this

theorem bytes {d : Bytes} (h : d.length = n) : Reads (bytes n) d d := by
  intro rest
  subst h
  rw [Reader.bytes, if_pos (by simp), List.take_left, List.drop_left]

theorem word (h : n < 256 ^ w) : Reads (word w) (leBytes w n) n := by
  have hread := map (f := leNat) (bytes (d := leBytes w n) length_leBytes)
  rwa [leNat_leBytes_of_lt h] at hread

theorem require {c : Prop} [Decidable c] (h : c) : Reads (require c) [] () :=
  fun _ => if_pos h

theorem expect : Reads (expect d) d () := by
  have hread := bind (f := fun d' => Reader.require (d' = d)) (bytes (d := d) rfl) (require rfl)
  rwa [List.append_nil] at hread

theorem within (hr : Reads r enc a) (h : enc.length = n) : Reads (within n r) enc a := by
  have hall : r enc = some (a, []) := by
    have := hr []
    rwa [List.append_nil] at this
  have hpure : Reads (match r enc with
    | some (a, []) => Pure.pure a
    | _ => failure) [] a := by
    rw [hall]
    exact pure
  have hread := bind (bytes h) (f := fun d => match r d with
    | some (a, []) => Pure.pure a
    | _ => failure) hpure
  rwa [List.append_nil] at hread

theorem sized (hr : Reads r enc a) (h : enc.length < 256 ^ 4) :
    Reads (sized r) (leBytes 4 enc.length ++ enc) a :=
  bind (word h) (within hr rfl)

theorem blob {d : Bytes} (h : d.length < 256 ^ 4) : Reads blob (leBytes 4 d.length ++ d) d :=
  bind (word h) (bytes rfl)

theorem times {enc : α → Bytes} (hr : ∀ a ∈ as, Reads r (enc a) a) :
    Reads (times r as.length) (as.map enc).flatten as := by
  induction as with
  | nil => exact pure
  | cons a as ih =>
    refine bind (hr a List.mem_cons_self) (map (f := (a :: ·)) (ih fun b hb => ?_))
    exact hr b (List.mem_cons_of_mem _ hb)

end Reads

end Reader

end MotuProxy
