import PacketFilter.Literal.Token

/-!
# Looking ahead in a group

Where the contents of a group may or may not have parentheses of their own, the text behind its
opening parenthesis must tell how much the group holds before any of it is read. Looking ahead
passes over blanks, comments and quotes and counts brackets, up to the first comma of the group
itself or to its end. Right behind quotes it does not look for a comment, so one that stands there
is taken for something else.

Main statements: `length_le_of_passBlanks?` and `length_le_of_passQuotes?`, what is passed over
leaves no more than there was.
-/

namespace PacketFilter.Literal

/-! ## Blanks and quotes -/

/-- Pass over blanks and comments, in the middle of which the text may stand; none if a comment does
not end. -/
def passBlanks? (mode : Mode) : List Char → Option (List Char)
  | [] =>
    match mode with
    | .between | .lineComment => some []
    | _ => none
  | c :: cs =>
    match mode with
    | .between =>
      if isSeparator c then passBlanks? .between cs
      else if c = '/' then passBlanks? .slash cs
      else some (c :: cs)
    | mode => (mode.step c cs).bind fun (_, mode) => passBlanks? mode cs

theorem length_le_of_passBlanks? {mode : Mode} {cs rest : List Char}
    (h : passBlanks? mode cs = some rest) : rest.length ≤ cs.length := by
  induction cs generalizing mode with
  | nil => unfold passBlanks? at h; split at h <;> simp_all
  | cons c cs ih =>
    unfold passBlanks? at h
    split at h
    · split at h
      · exact Nat.le_succ_of_le (ih h)
      · split at h
        · exact Nat.le_succ_of_le (ih h)
        · simp_all
    · obtain ⟨_, -, hr⟩ := Option.bind_eq_some_iff.1 h
      exact Nat.le_succ_of_le (ih hr)

/-- How it ends what a text stands in the middle of. -/
inductive Ending where
  /-- Properly, with so much left. -/
  | proper (rest : List Char)
  /-- At a character that may not stand there. -/
  | refused
  /-- Not before the text does, or without a quote in the rest of it. -/
  | endless
  deriving DecidableEq, Repr

/-- How it ends where the first of these characters may not stand. A string with escapes is searched
for a closing quote in front of every escape, so where there is none that comes first. -/
def Mode.failure (mode : Mode) (cs : List Char) : Ending :=
  match mode with
  | .rawStart .. => .refused
  | _ => if '"' ∈ cs then .refused else .endless

/-- Go on to the end of what is under way. -/
def Mode.ending (mode : Mode) : List Char → Ending
  | [] => .endless
  | c :: cs =>
    match mode.step c cs with
    | some (_, .between) => .proper cs
    | some (_, mode) => mode.ending cs
    | none => mode.failure (c :: cs)

theorem Mode.failure_ne_proper (mode : Mode) (cs rest : List Char) :
    mode.failure cs ≠ .proper rest := by
  unfold Mode.failure
  repeat' split
  all_goals simp

theorem Mode.length_lt_of_ending {mode : Mode} {cs rest : List Char}
    (h : mode.ending cs = .proper rest) : rest.length < cs.length := by
  induction cs generalizing mode with
  | nil => simp [Mode.ending] at h
  | cons c cs ih =>
    unfold Mode.ending at h
    split at h
    · simp_all
    · exact Nat.lt_succ_of_lt (ih h)
    · exact absurd h (Mode.failure_ne_proper mode _ _)

/-- Pass over a character in quotes, if there is one. -/
def passChar (cs : List Char) : List Char :=
  match cs with
  | '\'' :: body =>
    match (Mode.quoted .char []).ending body with
    | .proper rest => rest
    | _ => cs
  | _ => cs

/-- The mode behind the mark with which a string begins, and what follows the mark. -/
def stringStart? : List Char → Option (Mode × List Char)
  | '"' :: cs => some (.quoted .text [], cs)
  | 'r' :: '"' :: cs => some (.raw .text 0 [], cs)
  | 'r' :: '#' :: cs => some (.rawStart .bytes 1, cs)
  | _ => none

/-- The mode behind the mark with which a string of bytes begins, and what follows the mark. -/
def bytesStart? : List Char → Option (Mode × List Char)
  | 'b' :: '"' :: cs => some (.quoted .bytes [], cs)
  | 'b' :: 'r' :: '"' :: cs => some (.raw .bytes 0 [], cs)
  | 'b' :: 'r' :: '#' :: cs => some (.rawStart .bytes 1, cs)
  | _ => none

/-- Pass over quotes that begin in a certain way, if there are such; none if they do not end. -/
def passString? (start? : List Char → Option (Mode × List Char)) (cs : List Char) :
    Option (List Char) :=
  match start? cs with
  | none => some cs
  | some (mode, body) =>
    match mode.ending body with
    | .proper rest => some rest
    | .refused => some cs
    | .endless => none

/-- Pass over a character in quotes, a string, and a string of bytes, each if there is one. -/
def passQuotes? (cs : List Char) : Option (List Char) :=
  (passString? stringStart? (passChar cs)).bind (passString? bytesStart?)

theorem length_le_of_passChar (cs : List Char) : (passChar cs).length ≤ cs.length := by
  unfold passChar
  split
  · split
    · rename_i h
      exact Nat.le_succ_of_le (Nat.le_of_lt (Mode.length_lt_of_ending h))
    · exact Nat.le_refl _
  · exact Nat.le_refl _

theorem length_le_of_passString? {start? : List Char → Option (Mode × List Char)}
    (hs : ∀ {cs mode body}, start? cs = some (mode, body) → body.length ≤ cs.length)
    {cs rest : List Char} (h : passString? start? cs = some rest) : rest.length ≤ cs.length := by
  unfold passString? at h
  split at h
  · simp_all
  · rename_i hstart
    split at h
    · rename_i hend
      obtain rfl := Option.some.inj h
      exact Nat.le_trans (Nat.le_of_lt (Mode.length_lt_of_ending hend)) (hs hstart)
    · simp_all
    · simp at h

theorem length_le_of_stringStart? {cs body : List Char} {mode : Mode}
    (h : stringStart? cs = some (mode, body)) : body.length ≤ cs.length := by
  unfold stringStart? at h
  split at h <;> simp_all <;> omega

theorem length_le_of_bytesStart? {cs body : List Char} {mode : Mode}
    (h : bytesStart? cs = some (mode, body)) : body.length ≤ cs.length := by
  unfold bytesStart? at h
  split at h <;> simp_all <;> omega

theorem length_le_of_passQuotes? {cs rest : List Char} (h : passQuotes? cs = some rest) :
    rest.length ≤ cs.length := by
  obtain ⟨mid, hm, hr⟩ := Option.bind_eq_some_iff.1 h
  have h₁ := length_le_of_passString? length_le_of_bytesStart? hr
  have h₂ := length_le_of_passString? length_le_of_stringStart? hm
  have h₃ := length_le_of_passChar cs
  omega

/-! ## The extent of a group -/

/-- How much a group holds. -/
inductive Extent where
  | one
  | several
  deriving DecidableEq, Repr

namespace Extent

/-- Look ahead within so many brackets of the group; none if the text ends first. A comma with
nothing behind it in the group does not part anything. -/
def look? (depth : Nat) (cs : List Char) : Option Extent :=
  match _hb : passBlanks? .between cs with
  | none => none
  | some body =>
    match _hq : passQuotes? body with
    | none | some [] => none
    | some (c :: rest) =>
      if c = '(' ∨ c = '[' ∨ c = '{' then look? (depth + 1) rest
      else if c = ')' ∨ c = ']' ∨ c = '}' then
        if depth = 0 then some .one else look? (depth - 1) rest
      else if c = ',' ∧ depth = 0 then
        (passBlanks? .between rest).map fun next =>
          if next.head? = some ')' then .one else .several
      else look? depth rest
termination_by cs.length
decreasing_by
  all_goals
    have := length_le_of_passBlanks? _hb
    have := length_le_of_passQuotes? _hq
    simp only [List.length_cons] at this
    omega

/-- How much the group holds behind whose opening parenthesis the text stands. -/
def ofText? (behind : List Char) : Option Extent := look? 0 behind

end Extent

end PacketFilter.Literal
