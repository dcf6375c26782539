import PacketFilter.Blank
import PacketFilter.Unicode.Width

/-!
# Aligned columns

Text whose lines hold cells ended by tabs, aligned by elastic tab stops (`TabWriter`). What follows
the last tab of a line is no cell and is left as it is. A column is a run of adjacent lines that
have a cell at the same place. It is as wide as the widest of them and never narrower than two; each
cell is padded to that width and two blanks more.

A cell is as wide as its characters are on a terminal. Colours and the like, which are switched by
an escape sequence that ends in `m`, take up no room.

Main statement: `totalWidth_pad`, a padded cell is exactly as wide as its column, if it fits.
-/

namespace PacketFilter.Columns

open Unicode

/-- The width of a column whose cells are all narrower. -/
def minWidth : Nat := 2

/-- The gap between two columns. -/
def gap : Nat := 2

/-! ## Widths of cells -/

/-- The characters behind the next `m`, if there is one. -/
def afterColour? : List Char → Option (List Char)
  | [] => none
  | 'm' :: cs => some cs
  | _ :: cs => afterColour? cs

theorem length_lt_of_afterColour? {cs rest : List Char} (h : afterColour? cs = some rest) :
    rest.length < cs.length := by
  fun_induction afterColour? cs with
  | case1 => simp at h
  | case2 => simp_all
  | case3 _ _ _ ih =>
    have := ih h
    simp only [List.length_cons]
    omega

/-- Leave out the escape sequences for colours. Where one does not end, nothing more is left out. -/
def withoutColours (cs : List Char) : List Char :=
  match cs with
  | '\x1b' :: '[' :: rest =>
    match _h : afterColour? rest with
    | some rest => withoutColours rest
    | none => '\x1b' :: '[' :: rest
  | c :: rest => c :: withoutColours rest
  | [] => []
termination_by cs.length
decreasing_by
  · have := length_lt_of_afterColour? _h
    simp only [List.length_cons]
    omega
  · simp

/-- The columns of a terminal that a cell takes up. -/
def cellWidth (cell : String) : Nat := totalWidth (withoutColours cell.toList)

/-! ## Lines and columns -/

/-- A line as its cells and what follows them. -/
structure Line where
  cells : List String
  tail : String

/-- Cut a line at its tabs. -/
def Line.ofChars (cs : List Char) : Line :=
  let pieces := (splitAtEach '\t' cs).map String.ofList
  ⟨pieces.dropLast, pieces.getLast?.getD ""⟩

/-- The widest cell at place `j` in the run of lines at the head that have one. -/
def runWidth (j : Nat) : List Line → Nat
  | [] => minWidth
  | l :: ls =>
    match l.cells[j]? with
    | some c => max (cellWidth c) (runWidth j ls)
    | none => minWidth

/-- For each line the width of the column that its cell at place `j` belongs to. The width of a run
that has begun on an earlier line is `begun`. -/
def columnWidths (j : Nat) (begun : Option Nat) : List Line → List Nat
  | [] => []
  | l :: ls =>
    match l.cells[j]? with
    | none => 0 :: columnWidths j none ls
    | some c =>
      let width := begun.getD (max (cellWidth c) (runWidth j ls))
      width :: columnWidths j (some width) ls

/-- So many blanks behind a cell that it takes up the width and the gap. -/
def padding (width : Nat) (cell : String) : Nat := width + gap - cellWidth cell

/-- Put blanks behind a cell. -/
def pad (width : Nat) (cell : String) : String :=
  cell ++ String.ofList (List.replicate (padding width cell) ' ')

/-- Pad the cells at place `j` of all lines. -/
def padColumn (lines : List Line) (j : Nat) : List String :=
  (lines.zip (columnWidths j none lines)).map fun (l, width) =>
    match l.cells[j]? with
    | some c => pad width c
    | none => ""

/-- Put a column to the right of what has been written of each line. -/
def appendColumn (lines : List Line) (written : List String) (j : Nat) : List String :=
  written.zipWith (· ++ ·) (padColumn lines j)

/-- Align the columns of a text. -/
def align (text : String) : String :=
  let lines := (splitAtEach '\n' text.toList).map Line.ofChars
  let places := (lines.map fun l => l.cells.length).foldl max 0
  let cells := (List.range places).foldl (appendColumn lines) (lines.map fun _ => "")
  "\n".intercalate (cells.zipWith (fun cs l => cs ++ l.tail) lines)

/-! ## Laws -/

theorem totalWidth_replicate_blank (n : Nat) : totalWidth (List.replicate n ' ') = n := by
  have hone : width ' ' = 1 := by decide
  induction n with
  | zero => rfl
  | succ n ih =>
    show width ' ' + totalWidth (List.replicate n ' ') = n + 1
    rw [hone, ih, Nat.add_comm]

/-- A cell without escape sequences is exactly as wide as its column once it is padded. -/
theorem totalWidth_pad {w : Nat} {cell : String} (hw : cellWidth cell ≤ w)
    (hc : withoutColours cell.toList = cell.toList) :
    totalWidth (pad w cell).toList = w + gap := by
  have hcell : totalWidth cell.toList = cellWidth cell := by rw [cellWidth, hc]
  simp only [pad, String.toList_append, String.toList_ofList, totalWidth_append,
    totalWidth_replicate_blank, hcell, padding]
  omega

end PacketFilter.Columns
