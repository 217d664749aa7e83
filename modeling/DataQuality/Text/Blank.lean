/-!
# Blank characters and lines

Blank characters are those with the property White_Space. A text is trimmed of them at both ends,
and split into lines at line feeds; a carriage return before a line feed belongs to the line end.
-/
namespace DataQuality.Text

/-- A character with the property White_Space. -/
def isBlank (c : Char) : Bool :=
  let n := c.toNat
  (9 ≤ n && n ≤ 13) || n == 0x20 || n == 0x85 || n == 0xA0 || n == 0x1680 ||
    (0x2000 ≤ n && n ≤ 0x200A) || n == 0x2028 || n == 0x2029 || n == 0x202F || n == 0x205F ||
    n == 0x3000

/-- The characters without the blank ones at either end. -/
def trimChars (cs : List Char) : List Char :=
  ((cs.dropWhile isBlank).reverse.dropWhile isBlank).reverse

/-- A text without the blank characters at either end. -/
def trim (s : String) : String := String.ofList (trimChars s.toList)

/-- Whether nothing but blank characters is left in a text. -/
def isAllBlank (s : String) : Bool := s.toList.all isBlank

/-- A line that ended with a line feed, without the carriage return that came before it. -/
def dropReturn (line : List Char) : List Char :=
  if line.getLast? = some '\r' then line.dropLast else line

/-- The lines of the characters that follow `current` (nearest first) on the current line. -/
def linesFrom (current : List Char) : List Char → List (List Char)
  | [] => if current.isEmpty then [] else [current.reverse]
  | c :: rest =>
    if c = '\n' then dropReturn current.reverse :: linesFrom [] rest
    else linesFrom (c :: current) rest

/-- The lines of a text. The last line need not end with a line feed, and a line feed at the end of
the text starts no further line. -/
def lines (s : String) : List String := (linesFrom [] s.toList).map String.ofList

theorem dropWhile_isBlank_of_not_blank {cs : List Char} (h : ∀ c ∈ cs, isBlank c = false) :
    cs.dropWhile isBlank = cs := by
  cases cs with
  | nil => rfl
  | cons c rest => simp [h c List.mem_cons_self]

/-- Characters that are not blank are what is left of them between blank ones. -/
theorem trimChars_between {front cs back : List Char} (hfront : ∀ c ∈ front, isBlank c = true)
    (hback : ∀ c ∈ back, isBlank c = true) (h : ∀ c ∈ cs, isBlank c = false) :
    trimChars (front ++ (cs ++ back)) = cs := by
  have hend : ∀ c ∈ back.reverse, isBlank c = true := fun c hc => hback c (List.mem_reverse.1 hc)
  unfold trimChars
  rw [List.dropWhile_append_of_pos hfront]
  cases cs with
  | nil =>
    rw [List.nil_append, ← List.append_nil back, List.dropWhile_append_of_pos hback]
    rfl
  | cons c rest =>
    have hstart : (c :: rest ++ back).dropWhile isBlank = c :: rest ++ back := by
      simp [h c List.mem_cons_self]
    rw [hstart, List.reverse_append, List.dropWhile_append_of_pos hend,
      dropWhile_isBlank_of_not_blank fun d hd => h d (List.mem_reverse.1 hd), List.reverse_reverse]

theorem trimChars_of_not_blank {cs : List Char} (h : ∀ c ∈ cs, isBlank c = false) :
    trimChars cs = cs := by
  have hbetween := trimChars_between (List.forall_mem_nil _) (List.forall_mem_nil _) h
  rwa [List.nil_append, List.append_nil] at hbetween

/-- What is left of some characters stood between blank ones. -/
theorem exists_trimChars (cs : List Char) : ∃ front back, cs = front ++ (trimChars cs ++ back) ∧
    (∀ c ∈ front, isBlank c = true) ∧ ∀ c ∈ back, isBlank c = true := by
  let rest := cs.dropWhile isBlank
  refine ⟨cs.takeWhile isBlank, (rest.reverse.takeWhile isBlank).reverse, ?_,
    List.all_eq_true.1 List.all_takeWhile, fun c hc => ?_⟩
  · have hrest : trimChars cs ++ (rest.reverse.takeWhile isBlank).reverse = rest := by
      unfold trimChars
      rw [← List.reverse_append, List.takeWhile_append_dropWhile, List.reverse_reverse]
    rw [hrest, List.takeWhile_append_dropWhile]
  · exact List.all_eq_true.1 List.all_takeWhile c (List.mem_reverse.1 hc)

/-- Lines that are complete are the same whatever comes after them. -/
theorem linesFrom_append {current cs : List Char} (rest : List Char) :
    linesFrom current (cs ++ '\n' :: rest) =
      linesFrom current (cs ++ ['\n']) ++ linesFrom [] rest := by
  induction cs generalizing current with
  | nil => simp [linesFrom]
  | cons c cs ih =>
    rw [List.cons_append, List.cons_append, linesFrom, linesFrom]
    split
    · rw [ih, List.cons_append]
    · rw [ih]

theorem linesFrom_line {current cs : List Char} (h : '\n' ∉ cs) :
    linesFrom current (cs ++ ['\n']) = [dropReturn (current.reverse ++ cs)] := by
  induction cs generalizing current with
  | nil => simp [linesFrom]
  | cons c cs ih =>
    have hc : c ≠ '\n' := fun he => h (by simp [he])
    have hcs : '\n' ∉ cs := fun hm => h (by simp [hm])
    rw [List.cons_append, linesFrom, if_neg hc, ih hcs]
    simp

/-- The lines of two texts, one after the other, where the first one ends its last line. -/
theorem lines_append {a b : String} (h : a.toList = [] ∨ ∃ cs, a.toList = cs ++ ['\n']) :
    lines (a ++ b) = lines a ++ lines b := by
  unfold lines
  rw [String.toList_append]
  rcases h with hempty | ⟨cs, hcs⟩
  · rw [hempty]
    rfl
  · rw [hcs, List.append_assoc, List.singleton_append, linesFrom_append, List.map_append]

end DataQuality.Text
