/-!
# Shell patterns

Patterns for interface names: `?` stands for one byte, `*` for any number of them, and every
other byte for itself.

The matcher walks pattern and name together. At a star it remembers where it was; when it gets
stuck it goes back to the last star and lets it take one byte more. A byte of the pattern is
compared with the byte of the name before it is looked at as a star.
-/

namespace PacketFilter.Glob

/-- The byte of a question mark. -/
def anyByte : UInt8 := 63

/-- The byte of a star. -/
def anyBytes : UInt8 := 42

/-- Where to go on when stuck: the pattern after the last star, and the name as it was when the
star was reached, less what the star has taken since. -/
structure Anchor where
  pattern : List UInt8
  name : List UInt8

/-- The name left at the anchor, or one more than the name if there is no anchor. It shrinks each
time the walk goes back. -/
def reach (name : List UInt8) : Option Anchor → Nat
  | some a => a.name.length
  | none => name.length + 1

/-- Match the rest of a pattern against the rest of a name. -/
def walk (pattern name : List UInt8) (anchor : Option Anchor)
    (behind : ∀ a, anchor = some a → name.length ≤ a.name.length) : Bool :=
  match name with
  | [] => pattern.all (· == anyBytes)
  | n :: name' =>
    match pattern with
    | p :: pattern' =>
      if p = anyByte ∨ p = n then
        walk pattern' name' anchor fun a h => by
          have := behind a h
          simp only [List.length_cons] at this
          omega
      else if p = anyBytes then
        walk pattern' (n :: name') (some ⟨pattern', n :: name'⟩) fun a h => by
          cases h
          exact Nat.le_refl _
      else
        match anchor with
        | some ⟨pattern'', _ :: name''⟩ =>
          walk pattern'' name'' (some ⟨pattern'', name''⟩) fun a h => by
            cases h
            exact Nat.le_refl _
        | _ => false
    | [] =>
      match anchor with
      | some ⟨pattern'', _ :: name''⟩ =>
        walk pattern'' name'' (some ⟨pattern'', name''⟩) fun a h => by
          cases h
          exact Nat.le_refl _
      | _ => false
termination_by (reach name anchor, pattern.length + name.length)
decreasing_by
  · cases anchor with
    | none => exact Prod.Lex.left _ _ (by simp [reach])
    | some a => exact Prod.Lex.right _ (by simp only [List.length_cons]; omega)
  · cases anchor with
    | none => exact Prod.Lex.left _ _ (by simp [reach])
    | some a =>
      have := behind a rfl
      rcases Nat.lt_or_eq_of_le this with h | h
      · exact Prod.Lex.left _ _ (by simpa [reach] using h)
      · simp only [reach, h]
        exact Prod.Lex.right _ (by simp)
  · exact Prod.Lex.left _ _ (by simp [reach])
  · exact Prod.Lex.left _ _ (by simp [reach])

/-- Does the pattern match the whole name (`glob_match`)? -/
def matchBytes (pattern name : List UInt8) : Bool := walk pattern name none (by simp)

/-- An empty name is matched by stars alone. -/
@[simp] theorem matchBytes_nil (pattern : List UInt8) :
    matchBytes pattern [] = pattern.all (· == anyBytes) := by
  rw [matchBytes, walk]

end PacketFilter.Glob
