import Mathlib.Computability.Language
import PacketFilter.Glob

/-!
# What a shell pattern matches

A pattern describes a language: the strings that its bytes stand for, one behind the other. The
matcher remembers only the last star, and what is tried again when it is stuck is that this star
takes one byte more. `Promising` is what it still has to find then.

That nothing is lost with the stars before the last one is because a later star takes whatever an
earlier one would have taken in its place: between two stars pattern and name are left behind in
step, byte by byte, so that with more bytes for the earlier star the later one begins further on in
the name, and it can take what lies between.

A byte of the pattern is compared with the name before it is looked at as a star. In a name without
stars this makes no difference.

Main statements: `promising_of_walk`, what is matched is described by the pattern;
`walk_of_promising`, what is described is matched if the name has no star;
**`matchBytes_language`**.
-/

namespace PacketFilter.Glob

/-! ## The language of a pattern -/

/-- The strings that one byte of a pattern stands for: a star for any, a question mark for those of
one byte, and every other byte for itself. -/
def strings (p : UInt8) : Language UInt8 :=
  {s : List UInt8 | p = anyBytes ∨ p = anyByte ∧ s.length = 1 ∨ s = [p]}

/-- **The strings that a pattern describes**: those of its bytes, one behind the other. -/
def language (pattern : List UInt8) : Language UInt8 := (pattern.map strings).prod

variable {p n : UInt8} {pattern name s : List UInt8}

theorem mem_language_nil : s ∈ language [] ↔ s = [] := Language.mem_one s

theorem mem_language_cons :
    s ∈ language (p :: pattern) ↔ ∃ u ∈ strings p, ∃ v ∈ language pattern, u ++ v = s := by
  rw [language, List.map_cons, List.prod_cons]
  exact Language.mem_mul

/-- A star takes what is in front of a string that the rest of the pattern describes. -/
theorem mem_language_anyBytes :
    s ∈ language (anyBytes :: pattern) ↔ ∃ v ∈ language pattern, v <:+ s := by
  rw [mem_language_cons]
  constructor
  · rintro ⟨u, -, v, hv, rfl⟩
    exact ⟨v, hv, List.suffix_append u v⟩
  · rintro ⟨v, hv, u, rfl⟩
    exact ⟨u, Or.inl rfl, v, hv, rfl⟩

/-- A star takes nothing, or one byte and then what a star takes. -/
theorem mem_language_anyBytes_iff :
    s ∈ language (anyBytes :: pattern) ↔
      s ∈ language pattern ∨ ∃ b t, s = b :: t ∧ t ∈ language (anyBytes :: pattern) := by
  simp only [mem_language_anyBytes]
  constructor
  · rintro ⟨v, hv, hsuffix⟩
    cases s with
    | nil => exact Or.inl (List.suffix_nil.mp hsuffix ▸ hv)
    | cons b t =>
      rcases List.suffix_cons_iff.mp hsuffix with rfl | hsuffix
      · exact Or.inl hv
      · exact Or.inr ⟨b, t, rfl, v, hv, hsuffix⟩
  · rintro (hs | ⟨b, t, rfl, v, hv, hsuffix⟩)
    · exact ⟨s, hs, List.suffix_refl s⟩
    · exact ⟨v, hv, hsuffix.trans (List.suffix_cons b t)⟩

/-- Any other byte takes one byte, which it stands for. -/
theorem mem_language_byte (hp : p ≠ anyBytes) :
    s ∈ language (p :: pattern) ↔
      ∃ b t, s = b :: t ∧ (p = anyByte ∨ p = b) ∧ t ∈ language pattern := by
  rw [mem_language_cons]
  constructor
  · rintro ⟨u, hu, v, hv, rfl⟩
    rcases hu with hstar | ⟨hany, hlength⟩ | rfl
    · exact absurd hstar hp
    · obtain ⟨b, rfl⟩ := List.length_eq_one_iff.mp hlength
      exact ⟨b, v, rfl, Or.inl hany, hv⟩
    · exact ⟨p, v, rfl, Or.inr rfl, hv⟩
  · rintro ⟨b, t, rfl, hany | rfl, ht⟩
    · exact ⟨[b], Or.inr (Or.inl ⟨hany, rfl⟩), t, ht, rfl⟩
    · exact ⟨[p], Or.inr (Or.inr rfl), t, ht, rfl⟩

/-- A byte that stands for the byte of the name, a star included, matches it. -/
theorem cons_mem_language (hp : p = anyByte ∨ p = n) (hname : name ∈ language pattern) :
    n :: name ∈ language (p :: pattern) := by
  by_cases hstar : p = anyBytes
  · subst hstar
    exact mem_language_anyBytes.mpr ⟨name, hname, List.suffix_cons n name⟩
  · exact (mem_language_byte hstar).mpr ⟨n, name, rfl, hp, hname⟩

/-- The empty string is described by stars alone. -/
theorem nil_mem_language : [] ∈ language pattern ↔ pattern.all (· == anyBytes) = true := by
  induction pattern with
  | nil => simp [mem_language_nil]
  | cons p pattern ih =>
    rw [List.all_cons, Bool.and_eq_true, beq_iff_eq, ← ih]
    by_cases hp : p = anyBytes
    · subst hp
      simp [mem_language_anyBytes, List.suffix_nil]
    · simp [mem_language_byte hp, hp]

/-- The part of a pattern in front of its first star takes as many bytes as it has. -/
theorem exists_of_mem_append {front : List UInt8} (hfront : anyBytes ∉ front)
    (hs : s ∈ language (front ++ pattern)) :
    ∃ u v, s = u ++ v ∧ u.length = front.length ∧ v ∈ language pattern := by
  induction front generalizing s with
  | nil => exact ⟨[], s, rfl, rfl, hs⟩
  | cons p front ih =>
    obtain ⟨hp, hrest⟩ := not_or.mp (mt List.mem_cons.mpr hfront)
    obtain ⟨b, t, rfl, -, ht⟩ := (mem_language_byte (Ne.symm hp)).mp hs
    obtain ⟨u, v, rfl, hlength, hv⟩ := ih hrest ht
    exact ⟨b :: u, v, rfl, congrArg (· + 1) hlength, hv⟩

/-! ## What a walk has to find -/

/-- **What a walk has still to find**: the rest of the name is described by the rest of the pattern,
or the name at the anchor is if the star takes at least one byte more. -/
def Promising (pattern name : List UInt8) (anchor : Option Anchor) : Prop :=
  name ∈ language pattern ∨
    ∃ a, anchor = some a ∧ ∃ b t, a.name = b :: t ∧ t ∈ language (anyBytes :: a.pattern)

/-- Where a walk stands right behind a star, it has to find what the star and the pattern behind it
describe. -/
theorem promising_anchored :
    Promising pattern name (some ⟨pattern, name⟩) ↔ name ∈ language (anyBytes :: pattern) := by
  rw [mem_language_anyBytes_iff]
  simp [Promising]

/-- **What a walk matches is described** by the pattern. -/
theorem promising_of_walk {anchor : Option Anchor}
    {behind : ∀ a, anchor = some a → name.length ≤ a.name.length}
    (h : walk pattern name anchor behind = true) : Promising pattern name anchor := by
  fun_induction walk pattern name anchor behind with
  | case1 pattern anchor => exact Or.inl (nil_mem_language.mpr h)
  | case2 anchor n name behind p pattern hp _ ih => exact (ih h).imp_left (cons_mem_language hp)
  | case3 anchor n name behind pattern _ _ ih => exact Or.inl (promising_anchored.mp (ih h))
  | case4 n name p pattern _ _ pattern' b name' _ _ ih =>
    exact Or.inr ⟨_, rfl, b, name', rfl, promising_anchored.mp (ih h)⟩
  | case6 n name pattern' b name' _ _ ih =>
    exact Or.inr ⟨_, rfl, b, name', rfl, promising_anchored.mp (ih h)⟩
  | case5 | case7 => cases h

/-- **Left behind in step**: since the star of the anchor, pattern and name have lost as many bytes,
none of them a star of the pattern. -/
structure Anchor.InStep (a : Anchor) (pattern name : List UInt8) : Prop where
  behind : ∃ front taken, a.pattern = front ++ pattern ∧ a.name = taken ++ name ∧
    front.length = taken.length ∧ anyBytes ∉ front
  starless : anyBytes ∉ a.name

namespace Anchor.InStep

variable {a : Anchor}

/-- Behind a star nothing has been left yet. -/
theorem start (hname : anyBytes ∉ name) (a : Anchor) (ha : some ⟨pattern, name⟩ = some a) :
    a.InStep pattern name := by
  cases ha
  exact ⟨⟨[], [], rfl, rfl, rfl, List.not_mem_nil⟩, hname⟩

theorem next (h : a.InStep (p :: pattern) (n :: name)) (hp : p ≠ anyBytes) :
    a.InStep pattern name := by
  obtain ⟨⟨front, taken, hpattern, hname, hlength, hfront⟩, hstarless⟩ := h
  refine ⟨⟨front ++ [p], taken ++ [n], ?_, ?_, ?_, ?_⟩, hstarless⟩
  · rw [hpattern, List.append_assoc, List.singleton_append]
  · rw [hname, List.append_assoc, List.singleton_append]
  · rw [List.length_append, List.length_append, hlength]
    rfl
  · simp [hfront, Ne.symm hp]

/-- **With more bytes for the star of the anchor**, the rest of the pattern begins further on in the
name. -/
theorem exists_further (h : a.InStep pattern name) {b : UInt8} {t : List UInt8}
    (hname : a.name = b :: t) (ht : t ∈ language (anyBytes :: a.pattern)) :
    ∃ v ∈ language pattern, v <:+ name ∧ v.length < name.length := by
  obtain ⟨front, taken, hpattern, htaken, hlength, hfront⟩ := h.behind
  obtain ⟨s, hs, hsuffix⟩ := mem_language_anyBytes.mp ht
  rw [hpattern] at hs
  obtain ⟨u, v, rfl, hu, hv⟩ := exists_of_mem_append hfront hs
  have hshort := hsuffix.length_le
  have hsizes := congrArg List.length (hname.symm.trans htaken)
  simp only [List.length_cons, List.length_append] at hshort hsizes
  have hshorter : v.length < name.length := by omega
  have hv_suffix : v <:+ a.name :=
    hname ▸ (List.suffix_append u v).trans (hsuffix.trans (List.suffix_cons b t))
  have hname_suffix : name <:+ a.name := htaken ▸ List.suffix_append taken name
  exact ⟨v, hv, List.suffix_of_suffix_length_le hv_suffix hname_suffix hshorter.le, hshorter⟩

end Anchor.InStep

namespace Promising

variable {anchor : Option Anchor}

/-- At the end of the name only stars are left. -/
theorem all_of_nil (h : Promising pattern [] anchor)
    (hstep : ∀ a, anchor = some a → a.InStep pattern []) :
    pattern.all (· == anyBytes) = true := by
  rcases h with h | ⟨a, ha, b, t, hname, ht⟩
  · exact nil_mem_language.mp h
  · obtain ⟨v, -, -, hshort⟩ := (hstep a ha).exists_further hname ht
    exact absurd hshort (Nat.not_lt_zero _)

/-- A byte that is no star is left behind. -/
theorem next (h : Promising (p :: pattern) (n :: name) anchor) (hp : p ≠ anyBytes) :
    Promising pattern name anchor := by
  refine h.imp_left fun hmem => ?_
  obtain ⟨b, t, heq, -, ht⟩ := (mem_language_byte hp).mp hmem
  cases heq
  exact ht

/-- **A star makes the one before it superfluous**: it takes what lies between. -/
theorem star (h : Promising (anyBytes :: pattern) name anchor)
    (hstep : ∀ a, anchor = some a → a.InStep (anyBytes :: pattern) name) :
    name ∈ language (anyBytes :: pattern) := by
  rcases h with h | ⟨a, ha, b, t, hname, ht⟩
  · exact h
  · obtain ⟨v, hv, hsuffix, -⟩ := (hstep a ha).exists_further hname ht
    obtain ⟨s, hs, hs_suffix⟩ := mem_language_anyBytes.mp hv
    exact mem_language_anyBytes.mpr ⟨s, hs, hs_suffix.trans hsuffix⟩

/-- A walk that is stuck has to go back. -/
theorem stuck (h : Promising pattern name anchor) (hstuck : name ∉ language pattern) :
    ∃ a, anchor = some a ∧ ∃ b t, a.name = b :: t ∧ t ∈ language (anyBytes :: a.pattern) :=
  h.resolve_left hstuck

/-- **When it goes back**, the star of the anchor has taken one byte more. -/
theorem goes_back {pattern' name' : List UInt8} {b : UInt8}
    (h : Promising pattern name (some ⟨pattern', b :: name'⟩))
    (hstep : ∀ a : Anchor, some ⟨pattern', b :: name'⟩ = some a → a.InStep pattern name)
    (hstuck : name ∉ language pattern) :
    anyBytes ∉ name' ∧ Promising pattern' name' (some ⟨pattern', name'⟩) := by
  obtain ⟨a, ha, b', t, heq, ht⟩ := h.stuck hstuck
  cases ha
  cases heq
  have hstarless := (hstep _ rfl).starless
  exact ⟨fun hmem => hstarless (List.mem_cons_of_mem b hmem), promising_anchored.mpr ht⟩

end Promising

theorem not_mem_of_mismatch (hp : ¬ (p = anyByte ∨ p = n)) (hstar : p ≠ anyBytes) :
    n :: name ∉ language (p :: pattern) := by
  intro hmem
  obtain ⟨b, t, heq, hmatch, -⟩ := (mem_language_byte hstar).mp hmem
  cases heq
  exact hp hmatch

theorem not_mem_of_exhausted : n :: name ∉ language [] := fun hmem => by
  cases mem_language_nil.mp hmem

/-- **What is described is matched**, in a name without stars. -/
theorem walk_of_promising {anchor : Option Anchor}
    {behind : ∀ a, anchor = some a → name.length ≤ a.name.length} (hname : anyBytes ∉ name)
    (hstep : ∀ a, anchor = some a → a.InStep pattern name)
    (h : Promising pattern name anchor) : walk pattern name anchor behind = true := by
  fun_induction walk pattern name anchor behind with
  | case1 pattern anchor => exact h.all_of_nil hstep
  | case2 anchor n name behind p pattern hp _ ih =>
    have hstar : p ≠ anyBytes := by
      rintro rfl
      rcases hp with hp | rfl
      · cases hp
      · exact hname List.mem_cons_self
    exact ih (fun hmem => hname (List.mem_cons_of_mem n hmem))
      (fun a ha => (hstep a ha).next hstar) (h.next hstar)
  | case3 anchor n name behind pattern _ _ ih =>
    exact ih hname (.start hname) (promising_anchored.mpr (h.star hstep))
  | case4 n name p pattern hp hstar pattern' b name' _ _ ih =>
    obtain ⟨hstarless, hlater⟩ := h.goes_back hstep (not_mem_of_mismatch hp hstar)
    exact ih hstarless (.start hstarless) hlater
  | case6 n name pattern' b name' _ _ ih =>
    obtain ⟨hstarless, hlater⟩ := h.goes_back hstep not_mem_of_exhausted
    exact ih hstarless (.start hstarless) hlater
  | case5 anchor n name p pattern hp hstar behind hnone _ =>
    obtain ⟨⟨pattern', name'⟩, rfl, b, t, rfl, -⟩ := h.stuck (not_mem_of_mismatch hp hstar)
    exact (hnone pattern' b t behind rfl HEq.rfl).elim
  | case7 anchor n name behind hnone _ =>
    obtain ⟨⟨pattern', name'⟩, rfl, b, t, rfl, -⟩ := h.stuck not_mem_of_exhausted
    exact (hnone pattern' b t behind rfl HEq.rfl).elim

/-- **A pattern matches what it describes**, and nothing else; in a name that has stars of its own
it may miss what it describes. -/
theorem matchBytes_language (pattern name : List UInt8) :
    (matchBytes pattern name = true → name ∈ language pattern) ∧
      (anyBytes ∉ name → name ∈ language pattern → matchBytes pattern name = true) := by
  constructor
  · intro h
    exact (promising_of_walk h).resolve_right fun ⟨_, ha, _⟩ => by cases ha
  · intro hname h
    exact walk_of_promising hname (fun _ ha => by cases ha) (Or.inl h)

/-- `a*b*c` and `aXXbYYc`: the second star is where it goes on when the first has taken `XX`. -/
theorem matchBytes_language_two_stars :
    let pattern : List UInt8 := [97, 42, 98, 42, 99]
    let name : List UInt8 := [97, 88, 88, 98, 89, 89, 99]
    anyBytes ∉ name ∧ name ∈ language pattern ∧ matchBytes pattern name = true := by
  intro pattern name
  have htail : [98, 89, 89, 99] ∈ language [98, 42, 99] :=
    cons_mem_language (Or.inr rfl) (mem_language_anyBytes.mpr
      ⟨[99], cons_mem_language (Or.inr rfl) (mem_language_nil.mpr rfl), by decide⟩)
  have hmem : name ∈ language pattern :=
    cons_mem_language (Or.inr rfl) (mem_language_anyBytes.mpr ⟨_, htail, by decide⟩)
  have hmatch : matchBytes pattern name = true :=
    (matchBytes_language pattern name).2 (by decide) hmem
  exact ⟨by decide, (matchBytes_language pattern name).1 hmatch, hmatch⟩

end PacketFilter.Glob
