import PacketFilter.Proofs.Glob

/-!
# Names that have stars of their own

The matcher compares a byte of the pattern with the name before it looks at it as a star. So a star
of the pattern that comes upon a star of the name takes this one byte, as any other byte would, and
it is not gone back to. `literalFirst` is what is left of the language of a pattern then, and the
matcher finds exactly that: going back to the last star is enough here too. The parts of pattern
and name that have been left behind since that star went together byte by byte (`Anchor.LedTo`),
and with more bytes for the star the rest of the pattern never begins earlier in the name.

What is lost are the strings for which a star of the pattern would have to take more than the star
of the name that it comes upon. A pattern of stars alone loses every longer name that begins with as
many stars.

Main statements: `walk_eq_true_iff`, what a walk finds; `mem_literalFirst_of_singly`, what is not
lost; **`matchBytes_literalFirst`**, what is matched of all names; `star_misses_starred_name`, a
name that is lost.
-/

namespace PacketFilter.Glob

variable {p n : UInt8} {pattern name s : List UInt8} {anchor : Option Anchor}

/-! ## Bytes that stand for themselves first -/

/-- **The strings that a pattern describes if its bytes stand for themselves where they can**: a
byte with which the string begins takes this byte and nothing more, also if it is a star. -/
def literalFirst : List UInt8 → Language UInt8
  | [] => 1
  | p :: pattern =>
    {s : List UInt8 | if s.head? = some p then s.tail ∈ literalFirst pattern
      else s ∈ strings p * literalFirst pattern}

theorem mem_literalFirst_nil : s ∈ literalFirst [] ↔ s = [] := Language.mem_one s

theorem cons_mem_literalFirst_self :
    p :: s ∈ literalFirst (p :: pattern) ↔ s ∈ literalFirst pattern := iff_of_eq (if_pos rfl)

theorem mem_literalFirst_of_head?_ne (h : s.head? ≠ some p) :
    s ∈ literalFirst (p :: pattern) ↔ ∃ u ∈ strings p, ∃ v ∈ literalFirst pattern, u ++ v = s :=
  (iff_of_eq (if_neg h)).trans Language.mem_mul

/-- A star that does not come upon a star takes what is in front of a string that the rest of the
pattern describes. -/
theorem mem_literalFirst_anyBytes (h : s.head? ≠ some anyBytes) :
    s ∈ literalFirst (anyBytes :: pattern) ↔ ∃ v ∈ literalFirst pattern, v <:+ s := by
  rw [mem_literalFirst_of_head?_ne h]
  constructor
  · rintro ⟨u, -, v, hv, rfl⟩
    exact ⟨v, hv, List.suffix_append u v⟩
  · rintro ⟨v, hv, u, rfl⟩
    exact ⟨u, Or.inl rfl, v, hv, rfl⟩

/-- A byte that stands for the byte of the name takes it, a star included. -/
theorem cons_mem_literalFirst (hp : p = anyByte ∨ p = n) :
    n :: name ∈ literalFirst (p :: pattern) ↔ name ∈ literalFirst pattern := by
  by_cases hsame : p = n
  · subst hsame
    exact cons_mem_literalFirst_self
  · have hany : p = anyByte := hp.resolve_right hsame
    subst hany
    rw [mem_literalFirst_of_head?_ne (by simpa using Ne.symm hsame)]
    constructor
    · rintro ⟨u, hu, v, hv, heq⟩
      rcases hu with hstar | ⟨-, hlength⟩ | rfl
      · cases hstar
      · obtain ⟨b, rfl⟩ := List.length_eq_one_iff.mp hlength
        cases heq
        exact hv
      · cases heq
        exact hv
    · intro hname
      exact ⟨[n], Or.inr (Or.inl ⟨rfl, rfl⟩), name, hname, rfl⟩

/-- No other byte does, unless it is a star. -/
theorem cons_not_mem_literalFirst (hp : ¬ (p = anyByte ∨ p = n)) (hstar : p ≠ anyBytes) :
    n :: name ∉ literalFirst (p :: pattern) := by
  obtain ⟨hany, hne⟩ := not_or.mp hp
  rw [mem_literalFirst_of_head?_ne (by simpa using Ne.symm hne)]
  rintro ⟨u, hu, v, -, heq⟩
  rcases hu with hstar' | ⟨hany', -⟩ | rfl
  · exact hstar hstar'
  · exact hany hany'
  · cases heq
    exact hne rfl

/-- The empty string is described by stars alone. -/
theorem nil_mem_literalFirst : [] ∈ literalFirst pattern ↔ pattern.all (· == anyBytes) = true := by
  induction pattern with
  | nil => simp [mem_literalFirst_nil]
  | cons p pattern ih =>
    rw [List.all_cons, Bool.and_eq_true, beq_iff_eq, ← ih]
    by_cases hp : p = anyBytes
    · subst hp
      rw [mem_literalFirst_anyBytes (by simp)]
      simp [List.suffix_nil]
    · refine iff_of_false (fun hmem => ?_) fun h => hp h.1
      obtain ⟨u, hu, v, -, heq⟩ := (mem_literalFirst_of_head?_ne (by simp)).mp hmem
      obtain ⟨rfl, -⟩ := List.append_eq_nil_iff.mp heq
      rcases hu with hstar | ⟨-, hlength⟩ | hsame
      · exact hp hstar
      · cases hlength
      · cases hsame

/-- Whatever the first byte of a pattern takes, the rest describes what is behind. -/
theorem exists_suffix_of_mem_literalFirst (h : s ∈ literalFirst (p :: pattern)) :
    ∃ v ∈ literalFirst pattern, v <:+ s := by
  by_cases hhead : s.head? = some p
  · obtain ⟨t, rfl⟩ := List.head?_eq_some_iff.mp hhead
    exact ⟨t, cons_mem_literalFirst_self.mp h, List.suffix_cons p t⟩
  · obtain ⟨u, -, v, hv, rfl⟩ := (mem_literalFirst_of_head?_ne hhead).mp h
    exact ⟨v, hv, List.suffix_append u v⟩

/-- Nothing is described that the pattern does not describe anyway. -/
theorem mem_language_of_literalFirst (h : s ∈ literalFirst pattern) : s ∈ language pattern := by
  induction pattern generalizing s with
  | nil => exact mem_language_nil.mpr (mem_literalFirst_nil.mp h)
  | cons p pattern ih =>
    by_cases hhead : s.head? = some p
    · obtain ⟨t, rfl⟩ := List.head?_eq_some_iff.mp hhead
      exact cons_mem_language (Or.inr rfl) (ih (cons_mem_literalFirst_self.mp h))
    · obtain ⟨u, hu, v, hv, rfl⟩ := (mem_literalFirst_of_head?_ne hhead).mp h
      exact mem_language_cons.mpr ⟨u, hu, v, ih hv, rfl⟩

/-! ## What a walk finds -/

/-- **What a walk may still find**: the rest of the name is described by the rest of the pattern, or
a later part of the name is described by what stands behind the star of the anchor. -/
def Findable (pattern name : List UInt8) (anchor : Option Anchor) : Prop :=
  name ∈ literalFirst pattern ∨
    ∃ a, anchor = some a ∧ ∃ b t, a.name = b :: t ∧ ∃ v ∈ literalFirst a.pattern, v <:+ t

/-- **Where an anchor has led to**: since its star, each byte of the pattern has taken the byte of
the name that it stands for. -/
inductive Anchor.LedTo (a : Anchor) : List UInt8 → List UInt8 → Prop
  | start : a.LedTo a.pattern a.name
  | next {p n : UInt8} {pattern name : List UInt8} (h : a.LedTo (p :: pattern) (n :: name))
      (hp : p = anyByte ∨ p = n) : a.LedTo pattern name

theorem Anchor.LedTo.of_eq {a : Anchor} (ha : some ⟨pattern, name⟩ = some a) :
    a.LedTo pattern name := by
  cases ha
  exact .start

/-- **The rest of the pattern never begins earlier in the name**, however many bytes the star of the
anchor takes. -/
theorem Anchor.LedTo.exists_suffix {a : Anchor} (h : a.LedTo pattern name)
    (hs : s ∈ literalFirst a.pattern) (hsuffix : s <:+ a.name) :
    ∃ v ∈ literalFirst pattern, v <:+ name := by
  induction h with
  | start => exact ⟨s, hs, hsuffix⟩
  | @next p n pattern name _ hp ih =>
    obtain ⟨v, hv, hsuffix⟩ := ih
    rcases List.suffix_cons_iff.mp hsuffix with rfl | hsuffix
    · exact ⟨name, (cons_mem_literalFirst hp).mp hv, List.suffix_refl name⟩
    · obtain ⟨w, hw, hsuffix'⟩ := exists_suffix_of_mem_literalFirst hv
      exact ⟨w, hw, hsuffix'.trans hsuffix⟩

namespace Findable

/-- At the end of the name only stars may be left. -/
theorem nil_iff (hled : ∀ a, anchor = some a → a.LedTo pattern []) :
    Findable pattern [] anchor ↔ pattern.all (· == anyBytes) = true := by
  rw [← nil_mem_literalFirst]
  constructor
  · rintro (h | ⟨a, ha, b, t, hname, v, hv, hsuffix⟩)
    · exact h
    · have hbehind : v <:+ a.name := hname ▸ hsuffix.trans (List.suffix_cons b t)
      obtain ⟨w, hw, hnil⟩ := (hled a ha).exists_suffix hv hbehind
      exact List.suffix_nil.mp hnil ▸ hw
  · exact Or.inl

/-- A byte that stands for the byte of the name is left behind. -/
theorem next_iff (hp : p = anyByte ∨ p = n) :
    Findable (p :: pattern) (n :: name) anchor ↔ Findable pattern name anchor :=
  or_congr (cons_mem_literalFirst hp) Iff.rfl

/-- A walk that begins right behind a star finds what is described anywhere in the name. -/
theorem anchored_iff :
    Findable pattern name (some ⟨pattern, name⟩) ↔ ∃ v ∈ literalFirst pattern, v <:+ name := by
  constructor
  · rintro (h | ⟨a, ha, b, t, hname, v, hv, hsuffix⟩)
    · exact ⟨name, h, List.suffix_refl name⟩
    · cases ha
      obtain rfl : name = b :: t := hname
      exact ⟨v, hv, hsuffix.trans (List.suffix_cons b t)⟩
  · rintro ⟨v, hv, hsuffix⟩
    cases name with
    | nil => exact Or.inl (List.suffix_nil.mp hsuffix ▸ hv)
    | cons b t =>
      rcases List.suffix_cons_iff.mp hsuffix with rfl | hsuffix
      · exact Or.inl hv
      · exact Or.inr ⟨_, rfl, b, t, rfl, v, hv, hsuffix⟩

/-- **A star makes the one before it superfluous**: whatever is found with that one is found with
this one. -/
theorem star_iff (hn : n ≠ anyBytes)
    (hled : ∀ a, anchor = some a → a.LedTo (anyBytes :: pattern) (n :: name)) :
    Findable (anyBytes :: pattern) (n :: name) anchor ↔
      Findable pattern (n :: name) (some ⟨pattern, n :: name⟩) := by
  rw [anchored_iff, Findable, mem_literalFirst_anyBytes (by simpa using hn)]
  constructor
  · rintro (h | ⟨a, ha, b, t, hname, v, hv, hsuffix⟩)
    · exact h
    · have hbehind : v <:+ a.name := hname ▸ hsuffix.trans (List.suffix_cons b t)
      obtain ⟨w, hw, hsuffix⟩ := (hled a ha).exists_suffix hv hbehind
      obtain ⟨x, hx, hsuffix'⟩ := exists_suffix_of_mem_literalFirst hw
      exact ⟨x, hx, hsuffix'.trans hsuffix⟩
  · exact Or.inl

/-- **A walk that is stuck finds what it finds from the star of the anchor on**, with one byte more
for that star. -/
theorem stuck_iff {pattern' name' : List UInt8} {b : UInt8} (hstuck : name ∉ literalFirst pattern) :
    Findable pattern name (some ⟨pattern', b :: name'⟩) ↔
      Findable pattern' name' (some ⟨pattern', name'⟩) := by
  rw [anchored_iff, Findable, or_iff_right hstuck]
  constructor
  · rintro ⟨a, ha, b', t, hname, h⟩
    cases ha
    cases hname
    exact h
  · exact fun h => ⟨_, rfl, b, name', rfl, h⟩

end Findable

theorem cons_not_mem_literalFirst_nil : n :: name ∉ literalFirst [] := fun hmem => by
  cases mem_literalFirst_nil.mp hmem

/-- **A walk finds what there is to find.** -/
theorem walk_eq_true_iff {behind : ∀ a, anchor = some a → name.length ≤ a.name.length}
    (hled : ∀ a, anchor = some a → a.LedTo pattern name) :
    walk pattern name anchor behind = true ↔ Findable pattern name anchor := by
  fun_induction walk pattern name anchor behind with
  | case1 pattern anchor => exact (Findable.nil_iff hled).symm
  | case2 anchor n name behind p pattern hp _ ih =>
    rw [ih fun a ha => (hled a ha).next hp, Findable.next_iff hp]
  | case3 anchor n name behind pattern _ hp ih =>
    have hn : n ≠ anyBytes := fun heq => hp (Or.inr heq.symm)
    rw [ih fun _ => .of_eq, Findable.star_iff hn hled]
  | case4 n name p pattern hp hstar pattern' b name' _ _ ih =>
    rw [ih fun _ => .of_eq, Findable.stuck_iff (cons_not_mem_literalFirst hp hstar)]
  | case6 n name pattern' b name' _ _ ih =>
    rw [ih fun _ => .of_eq, Findable.stuck_iff cons_not_mem_literalFirst_nil]
  | case5 anchor n name p pattern hp hstar behind hnone _ =>
    refine iff_of_false Bool.false_ne_true ?_
    rintro (hmem | ⟨⟨pattern', name'⟩, rfl, b, t, rfl, -⟩)
    · exact cons_not_mem_literalFirst hp hstar hmem
    · exact hnone pattern' b t behind rfl HEq.rfl
  | case7 anchor n name behind hnone _ =>
    refine iff_of_false Bool.false_ne_true ?_
    rintro (hmem | ⟨⟨pattern', name'⟩, rfl, b, t, rfl, -⟩)
    · exact cons_not_mem_literalFirst_nil hmem
    · exact hnone pattern' b t behind rfl HEq.rfl

/-- What is matched, of any name. -/
theorem matchBytes_eq_true_iff : matchBytes pattern name = true ↔ name ∈ literalFirst pattern := by
  rw [matchBytes, walk_eq_true_iff fun _ ha => by cases ha]
  refine or_iff_left ?_
  rintro ⟨a, ha, -⟩
  cases ha

/-! ## What is lost -/

/-- **Stars of the pattern may take stars of the name singly**: wherever a star of the pattern can
come upon a star of the name, and the rest of the pattern be found behind, it can be found right
behind this one byte. -/
def TakesStarsSingly (pattern name : List UInt8) : Prop :=
  ∀ front rest taken left, pattern = front ++ anyBytes :: rest → name = taken ++ anyBytes :: left →
    taken ∈ language front → anyBytes :: left ∈ language (anyBytes :: rest) → left ∈ language rest

/-- What a byte of the pattern has taken is no hindrance to the rest. -/
theorem TakesStarsSingly.tail {u v : List UInt8} (h : TakesStarsSingly (p :: pattern) (u ++ v))
    (hu : u ∈ strings p) : TakesStarsSingly pattern v := by
  rintro front rest taken left rfl rfl htaken
  exact h (p :: front) rest (u ++ taken) left rfl (List.append_assoc u taken _).symm
    (mem_language_cons.mpr ⟨u, hu, taken, htaken, rfl⟩)

theorem singleton_mem_strings (p : UInt8) : [p] ∈ strings p := Or.inr (Or.inr rfl)

/-- **What is described is not lost** if stars may take stars singly. -/
theorem mem_literalFirst_of_singly (h : TakesStarsSingly pattern name)
    (hname : name ∈ language pattern) : name ∈ literalFirst pattern := by
  induction pattern generalizing name with
  | nil => exact mem_literalFirst_nil.mpr (mem_language_nil.mp hname)
  | cons p pattern ih =>
    by_cases hhead : name.head? = some p
    · -- The first byte stands for itself; if it is a star, it has to take this byte singly.
      obtain ⟨t, rfl⟩ := List.head?_eq_some_iff.mp hhead
      have ht : t ∈ language pattern := by
        by_cases hstar : p = anyBytes
        · subst hstar
          exact h [] pattern [] t rfl rfl (mem_language_nil.mpr rfl) hname
        · obtain ⟨b, t', heq, -, ht⟩ := (mem_language_byte hstar).mp hname
          cases heq
          exact ht
      have hrest : TakesStarsSingly pattern t := h.tail (u := [p]) (singleton_mem_strings p)
      exact cons_mem_literalFirst_self.mpr (ih hrest ht)
    · obtain ⟨u, hu, v, hv, rfl⟩ := mem_language_cons.mp hname
      exact (mem_literalFirst_of_head?_ne hhead).mpr ⟨u, hu, v, ih (h.tail hu) hv, rfl⟩

/-- **Stars alone** describe every name but the longer ones that begin with as many stars. -/
theorem mem_literalFirst_stars (k : Nat) (s : List UInt8) :
    s ∈ literalFirst (List.replicate k anyBytes) ↔
      (List.replicate k anyBytes <+: s → s = List.replicate k anyBytes) := by
  induction k generalizing s with
  | zero => simp [mem_literalFirst_nil]
  | succ k ih =>
    rw [List.replicate_succ]
    by_cases hhead : s.head? = some anyBytes
    · obtain ⟨t, rfl⟩ := List.head?_eq_some_iff.mp hhead
      rw [cons_mem_literalFirst_self, ih, List.cons_prefix_cons, List.cons.injEq]
      simp
    · have hall : [] ∈ literalFirst (List.replicate k anyBytes) :=
        nil_mem_literalFirst.mpr (by simp)
      refine iff_of_true ?_ ?_
      · exact (mem_literalFirst_anyBytes hhead).mpr ⟨[], hall, List.nil_suffix⟩
      · rintro ⟨t, rfl⟩
        exact absurd rfl hhead

/-- **What a pattern matches of any name**, one with stars included: what it describes if its bytes
stand for themselves where they can. This is all that the pattern describes if stars may take stars
singly, and a pattern of stars alone matches every name but the longer ones that begin with as many
stars. -/
theorem matchBytes_literalFirst (pattern name : List UInt8) :
    (matchBytes pattern name = true ↔ name ∈ literalFirst pattern) ∧
    (TakesStarsSingly pattern name →
      (matchBytes pattern name = true ↔ name ∈ language pattern)) ∧
    ∀ k, matchBytes (List.replicate k anyBytes) name = true ↔
      (List.replicate k anyBytes <+: name → name = List.replicate k anyBytes) := by
  refine ⟨matchBytes_eq_true_iff, fun h => ?_, fun k => ?_⟩
  · rw [matchBytes_eq_true_iff]
    exact ⟨mem_language_of_literalFirst, mem_literalFirst_of_singly h⟩
  · rw [matchBytes_eq_true_iff, mem_literalFirst_stars]

/-- `*b*c` and `Xb*c`: the second star of the pattern comes upon the star of the name, and `c` is
right behind it. -/
theorem matchBytes_literalFirst_shared_star :
    let pattern : List UInt8 := [42, 98, 42, 99]
    let name : List UInt8 := [88, 98, 42, 99]
    anyBytes ∈ name ∧ TakesStarsSingly pattern name ∧ name ∈ language pattern ∧
      matchBytes pattern name = true := by
  intro pattern name
  have hsingly : TakesStarsSingly pattern name := by
    intro front rest taken left hpattern hname htaken _
    obtain ⟨rfl, rfl⟩ : taken = [88, 98] ∧ left = [99] := by
      rcases taken with _ | ⟨_, _ | ⟨_, _ | ⟨_, _ | ⟨_, _⟩⟩⟩⟩ <;> simp_all [name, anyBytes]
    obtain ⟨rfl, rfl⟩ | ⟨rfl, rfl⟩ :
        front = [] ∧ rest = [98, 42, 99] ∨ front = [42, 98] ∧ rest = [99] := by
      rcases front with _ | ⟨_, _ | ⟨_, _ | ⟨_, _ | ⟨_, _⟩⟩⟩⟩ <;> simp_all [pattern, anyBytes]
    · cases mem_language_nil.mp htaken
    · exact cons_mem_language (Or.inr rfl) (mem_language_nil.mpr rfl)
  have hbehind : [98, 42, 99] ∈ language [98, 42, 99] :=
    cons_mem_language (Or.inr rfl) (cons_mem_language (Or.inr rfl)
      (cons_mem_language (Or.inr rfl) (mem_language_nil.mpr rfl)))
  have hmem : name ∈ language pattern := mem_language_anyBytes.mpr ⟨_, hbehind, by decide⟩
  exact ⟨by decide, hsingly, hmem, ((matchBytes_literalFirst pattern name).2.1 hsingly).mpr hmem⟩

/-- **A star alone does not match every name**: of `*a` it takes the star, and the rest is left. -/
theorem star_misses_starred_name :
    let pattern : List UInt8 := [42]
    let name : List UInt8 := [42, 97]
    anyBytes ∈ name ∧ name ∈ language pattern ∧ matchBytes pattern name = false := by
  intro pattern name
  have hmem : name ∈ language pattern :=
    mem_language_anyBytes.mpr ⟨[], mem_language_nil.mpr rfl, List.nil_suffix⟩
  have hlost : ¬ matchBytes pattern name = true := fun h =>
    absurd ((mem_literalFirst_stars 1 name).mp (matchBytes_eq_true_iff.mp h)) (by decide)
  exact ⟨by decide, hmem, Bool.eq_false_iff.mpr hlost⟩

end PacketFilter.Glob
