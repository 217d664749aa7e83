import DataQuality.Selector.Cursor
import Mathlib.Tactic

/-!
# Reading with a cursor

A cursor that stands in front of some characters reads of its text what the readers of characters
read of them, and then stands in front of those that are left. It never stands inside a character on
the way. So no slice is ever missing, and what is measured in bytes, names, numbers and literals, is
what is read. Nor do the steps run out: there are five for each character, and more are not needed.
-/
namespace DataQuality.Selector

section Standing

theorem utf8ByteSize_eq (s : String) : s.utf8ByteSize = byteLength s.toList := by
  obtain ⟨cs, rfl⟩ : ∃ cs, s = String.ofList cs := ⟨s.toList, String.ofList_toList.symm⟩
  rw [String.toList_ofList]
  induction cs with
  | nil => rfl
  | cons c cs ih =>
    rw [← List.singleton_append, String.ofList_append, String.utf8ByteSize_append, ih,
      byteLength_append, ← String.singleton_eq_ofList, String.utf8ByteSize_singleton,
      byteLength_singleton]

/-- The offset is in front of the characters `cs`, with which the text ends. -/
def Faces (text : String) (n : ℕ) (cs : List Char) : Prop :=
  ∃ before, text.toList = before ++ cs ∧ n = byteLength before

variable {text : String} {n : ℕ} {cs before : List Char}

theorem Faces.isBoundary (h : Faces text n cs) : IsBoundary text n := by
  obtain ⟨before, htext, rfl⟩ := h
  refine String.Pos.Raw.isValid_iff_exists_append.2
    ⟨String.ofList before, String.ofList cs, ?_, ?_⟩
  · rw [← String.ofList_append, ← htext, String.ofList_toList]
  · have hsize := utf8ByteSize_eq (String.ofList before)
    rw [String.toList_ofList] at hsize
    exact congrArg String.Pos.Raw.mk hsize.symm

theorem faces_start (text : String) : Faces text 0 text.toList := ⟨[], rfl, rfl⟩

/-- An offset moved over characters faces those after them. -/
theorem Faces.advance (h : Faces text n (before ++ cs)) :
    Faces text (n + byteLength before) cs := by
  obtain ⟨front, htext, rfl⟩ := h
  exact ⟨front ++ before, by rw [htext, List.append_assoc], (byteLength_append _ _).symm⟩

theorem Faces.offset_eq (h : Faces text n cs) : n = byteLength text.toList - byteLength cs := by
  obtain ⟨before, htext, rfl⟩ := h
  rw [htext, byteLength_append, Nat.add_sub_cancel]

theorem Faces.length_le (h : Faces text n cs) : cs.length ≤ text.length := by
  obtain ⟨before, htext, -⟩ := h
  rw [← String.length_toList, htext, List.length_append]
  omega

/-- In front of characters there is a slice that consists of them, and one of what comes before. -/
theorem slices_append (before cs : List Char) :
    sliceFrom? (String.ofList (before ++ cs)) (byteLength before) = some (String.ofList cs) ∧
      sliceTo? (String.ofList (before ++ cs)) (byteLength before) =
        some (String.ofList before) := by
  have hsize := utf8ByteSize_eq (String.ofList before)
  rw [String.toList_ofList] at hsize
  rw [String.ofList_append, ← hsize]
  have hboundary : IsBoundary (String.ofList before ++ String.ofList cs)
      (String.ofList before).utf8ByteSize :=
    String.Pos.Raw.isValid_iff_exists_append.2 ⟨_, _, rfl, rfl⟩
  have hsplits := String.Pos.splits
    ((String.ofList before ++ String.ofList cs).pos (String.ofList before).rawEndPos hboundary)
  unfold sliceFrom? sliceTo?
  rw [dif_pos hboundary, dif_pos hboundary]
  exact ⟨congrArg some (hsplits.eq_right String.Pos.splits_append_rawEndPos),
    congrArg some (hsplits.eq_left String.Pos.splits_append_rawEndPos)⟩

-- There is none inside a character.
example : sliceFrom? "né" 2 = none := by decide

theorem Faces.sliceFrom?_eq (h : Faces text n cs) :
    sliceFrom? text n = some (String.ofList cs) := by
  obtain ⟨before, htext, rfl⟩ := h
  rw [← String.ofList_toList (s := text), htext]
  exact (slices_append before cs).1

/-- Between an offset and one further on are the characters in between. -/
theorem Faces.slice?_eq (h : Faces text n (before ++ cs)) :
    slice? text n (n + byteLength before) = some (String.ofList before) := by
  obtain ⟨front, htext, rfl⟩ := h
  unfold slice?
  rw [← String.ofList_toList (s := text), htext, ← List.append_assoc, ← byteLength_append,
    (slices_append (front ++ before) cs).2]
  exact (slices_append front before).1

/-- The cursor is in front of the characters `cs`, and has never been inside a character. -/
structure Cursor.Stands (text : String) (c : Cursor) (cs : List Char) : Prop where
  faces : Faces text c.offset cs
  visited : ∀ n ∈ c.visited, IsBoundary text n

theorem stands_start (text : String) : Cursor.start.Stands text text.toList where
  faces := faces_start text
  visited := by
    intro n hn
    obtain rfl := List.mem_singleton.1 hn
    exact (faces_start text).isBoundary

/-- A cursor that has never been inside a character is moved in front of some. -/
theorem Faces.stands {visited : List ℕ} (h : Faces text n cs)
    (hvisited : ∀ m ∈ visited, IsBoundary text m) : Cursor.Stands text ⟨n, n :: visited⟩ cs where
  faces := h
  visited := List.forall_mem_cons.2 ⟨h.isBoundary, hvisited⟩

end Standing

namespace Reading

variable {α β : Type} {text : String} {cs : List Char} {c : Cursor}

section Runs

variable (text) (c)

@[simp] theorem runOn_pure (a : α) : runOn (pure a) text c = (.ok a, c) := rfl

@[simp] theorem runOn_read : runOn read text c = (.ok text, c) := rfl

@[simp] theorem runOn_get : runOn get text c = (.ok c, c) := rfl

@[simp] theorem runOn_moveTo (n : ℕ) :
    runOn (moveTo n) text c = (.ok (), ⟨n, n :: c.visited⟩) := rfl

theorem runOn_bind (m : Reading α) (k : α → Reading β) :
    runOn (m >>= k) text c = match runOn m text c with
      | (.ok a, c') => runOn (k a) text c'
      | (.error stop, c') => (.error stop, c') := by
  generalize hm : runOn m text c = r
  have hrun : m text c = r := hm
  change ExceptT.bind (m text) (fun a => k a text) c = _
  simp only [ExceptT.bind, ExceptT.mk, Bind.bind, StateT.bind, hrun]
  rcases r with ⟨_ | _, _⟩ <;> rfl

theorem runOn_tryCatch (m : Reading α) (handle : Stop → Reading α) :
    runOn (tryCatch m handle) text c = match runOn m text c with
      | (.ok a, c') => (.ok a, c')
      | (.error stop, c') => runOn (handle stop) text c' := by
  generalize hm : runOn m text c = r
  have hrun : m text c = r := hm
  change ExceptT.tryCatch (m text) (fun stop => handle stop text) c = _
  simp only [ExceptT.tryCatch, ExceptT.mk, Bind.bind, StateT.bind, hrun]
  rcases r with ⟨_ | _, _⟩ <;> rfl

theorem runOn_attempt (m : Reading α) :
    runOn (attempt m) text c = match runOn m text c with
      | (.ok a, c') => (.ok (some a), c')
      | (.error (.fault _ _), c') => (.ok none, c')
      | (.error stop, c') => (.error stop, c') := by
  have hmap : runOn (some <$> m) text c = match runOn m text c with
      | (.ok a, c') => (.ok (some a), c')
      | (.error stop, c') => (.error stop, c') := runOn_bind text c m fun a => pure (some a)
  unfold attempt
  rw [runOn_tryCatch, hmap]
  rcases runOn m text c with ⟨⟨_ | _ | _⟩ | _, _⟩ <;> rfl

end Runs

/-- A run with a cursor gives what a reader of characters gives: the same value, with the cursor in
front of what is left, or a fault at the same place and for the same reason. What is left is the end
of the characters `cs`. -/
inductive Agrees (text : String) (cs : List Char) :
    Except Stop α × Cursor → Except Fault (α × List Char) → Prop
  | ok {a : α} {c : Cursor} {rest : List Char} (stands : c.Stands text rest)
    (suffix : rest <:+ cs) : Agrees text cs (.ok a, c) (.ok (a, rest))
  | fault {n : ℕ} {reason : Reason} {c : Cursor} {rest : List Char} (faces : Faces text n rest)
    (visited : ∀ n ∈ c.visited, IsBoundary text n) :
    Agrees text cs (.error (.fault n reason), c) (.error ⟨rest, reason⟩)

theorem Agrees.exists_of_ok {x : Except Stop α × Cursor} {a : α} {rest : List Char}
    (h : Agrees text cs x (.ok (a, rest))) :
    ∃ c, x = (.ok a, c) ∧ c.Stands text rest ∧ rest <:+ cs := by
  cases h with
  | ok hstands hsuffix => exact ⟨_, rfl, hstands, hsuffix⟩

theorem Agrees.exists_of_fault {x : Except Stop α × Cursor} {fault : Fault}
    (h : Agrees text cs x (.error fault)) :
    ∃ n c, x = (.error (.fault n fault.reason), c) ∧ Faces text n fault.rest ∧
      ∀ n ∈ c.visited, IsBoundary text n := by
  cases h with
  | fault hfaces hvisited => exact ⟨_, _, rfl, hfaces, hvisited⟩

/-- With a cursor in front of the characters `cs`, reading gives what a reader of characters gives
of them. -/
def Reads (text : String) (m : Reading α) (cs : List Char) (r : Except Fault (α × List Char)) :
    Prop :=
  ∀ c : Cursor, c.Stands text cs → Agrees text cs (runOn m text c) r

namespace Reads

variable {m : Reading α} {k : α → Reading β} {rest : List Char}

protected theorem pure (a : α) : Reads text (pure a) cs (.ok (a, cs)) :=
  fun _ hc => .ok hc (List.suffix_refl cs)

theorem fail (reason : Reason) :
    Reads text (Reading.fail reason : Reading α) cs (.error ⟨cs, reason⟩) :=
  fun _ hc => .fault hc.faces hc.visited

protected theorem read {k : String → Reading β} {r : Except Fault (β × List Char)}
    (hk : Reads text (k text) cs r) : Reads text (read >>= k) cs r := hk

/-- What is read first decides where and how reading goes on. -/
protected theorem bind {r : Except Fault (α × List Char)}
    {n : α × List Char → Except Fault (β × List Char)} (hm : Reads text m cs r)
    (hk : ∀ a rest, r = .ok (a, rest) → rest <:+ cs → Reads text (k a) rest (n (a, rest))) :
    Reads text (m >>= k) cs (r >>= n) := by
  intro c hc
  have hrun := hm c hc
  rw [runOn_bind]
  generalize runOn m text c = x at hrun
  cases hrun with
  | ok hstands hsuffix =>
    have hnext := hk _ _ rfl hsuffix _ hstands
    change Agrees text cs (runOn _ text _) (n _)
    generalize runOn _ text _ = y at hnext
    generalize n _ = r at hnext
    cases hnext with
    | ok hstands' hsuffix' => exact .ok hstands' (hsuffix'.trans hsuffix)
    | fault hfaces hvisited => exact .fault hfaces hvisited
  | fault hfaces hvisited => exact .fault hfaces hvisited

/-- Reading goes on after something that is always read. -/
protected theorem seq {a : α} {r : Except Fault (β × List Char)}
    (hm : Reads text m cs (.ok (a, rest))) (hk : Reads text (k a) rest r) :
    Reads text (m >>= k) cs r :=
  hm.bind (n := fun _ => r) fun _ _ heq _ => by
    obtain ⟨rfl, rfl⟩ := Prod.mk.inj (Except.ok.inj heq)
    exact hk

/-- Reading stops at the first fault. -/
protected theorem stop {fault : Fault} (hm : Reads text m cs (.error fault)) :
    Reads text (m >>= k) cs (.error fault) :=
  hm.bind (n := fun _ => .error fault) fun _ _ h _ => nomatch h

/-- What is read is made into something else. -/
protected theorem map {f : α → β} {r : Except Fault (α × List Char)} (hm : Reads text m cs r) :
    Reads text (m >>= fun a => pure (f a)) cs (r.map fun read => (f read.1, read.2)) := by
  have hbind := hm.bind (n := fun read => .ok (f read.1, read.2)) fun a rest _ _ => .pure (f a)
  cases r <;> exact hbind

end Reads

section Parts

theorem run_rest (hc : c.Stands text cs) : runOn rest text c = (.ok (String.ofList cs), c) := by
  unfold rest
  simp only [runOn_bind, runOn_read, runOn_get, hc.faces.sliceFrom?_eq, given, runOn_pure]

theorem reads_rest : Reads text rest cs (.ok (String.ofList cs, cs)) := by
  intro c hc
  rw [run_rest hc]
  exact .ok hc (List.suffix_refl cs)

theorem reads_peek : Reads text peek cs (.ok (cs.head?, cs)) := by
  refine reads_rest.seq ?_
  rw [String.toList_ofList]
  exact .pure _

theorem reads_atEnd : Reads text atEnd cs (.ok (cs.isEmpty, cs)) := by
  intro c hc
  have hend : decide (text.utf8ByteSize ≤ c.offset) = cs.isEmpty := by
    obtain ⟨before, htext, hoffset⟩ := hc.faces
    rw [utf8ByteSize_eq, htext, byteLength_append, hoffset]
    cases cs with
    | nil => simp
    | cons d ds =>
      have := byteLength_pos (List.cons_ne_nil d ds)
      simp only [List.isEmpty_cons, decide_eq_false_iff_not]
      omega
  unfold atEnd
  simp only [runOn_bind, runOn_read, runOn_get, runOn_pure, hend]
  exact .ok hc (List.suffix_refl cs)

theorem reads_advance (before cs : List Char) :
    Reads text (advance (byteLength before)) (before ++ cs) (.ok ((), cs)) := by
  intro c hc
  unfold advance
  rw [runOn_bind, runOn_get]
  exact .ok (hc.faces.advance.stands hc.visited) (List.suffix_append before cs)

/-- A token that is there is read. -/
theorem reads_eat (token : String) (cs : List Char) :
    Reads text (eat token) (token.toList ++ cs) (.ok (true, cs)) := by
  refine reads_rest.seq ?_
  rw [String.toList_ofList, if_pos (List.isPrefixOf_iff_prefix.2 (List.prefix_append _ cs)),
    utf8ByteSize_eq]
  exact (reads_advance token.toList cs).seq (.pure _)

/-- A token that is not there leaves the cursor where it is. -/
theorem reads_eat_of_ne {token : String} (h : ∀ rest, cs ≠ token.toList ++ rest) :
    Reads text (eat token) cs (.ok (false, cs)) := by
  have hnone : ¬ token.toList.isPrefixOf cs = true := by
    rw [List.isPrefixOf_iff_prefix]
    rintro ⟨rest, hrest⟩
    exact h rest hrest.symm
  refine reads_rest.seq ?_
  rw [String.toList_ofList, if_neg hnone]
  exact .pure _

/-- A token decides how reading goes on. -/
theorem Reads.ifEats {token : String} {yes no : Reading α} {r : Except Fault (α × List Char)}
    (hyes : ∀ rest, cs = token.toList ++ rest → Reads text yes rest r)
    (hno : (∀ rest, cs ≠ token.toList ++ rest) → Reads text no cs r) :
    Reads text (do if ← eat token then yes else no) cs r := by
  by_cases h : ∃ rest, cs = token.toList ++ rest
  · obtain ⟨rest, rfl⟩ := h
    exact (reads_eat token rest).seq (hyes rest rfl)
  · have hne : ∀ rest, cs ≠ token.toList ++ rest := fun rest hrest => h ⟨rest, hrest⟩
    exact (reads_eat_of_ne hne).seq (hno hne)

theorem Reads.ifEatsIf {asked : Bool} {token : String} {yes no : Reading α}
    {r : Except Fault (α × List Char)}
    (hyes : asked = true → ∀ rest, cs = token.toList ++ rest → Reads text yes rest r)
    (hno : (asked = true → ∀ rest, cs ≠ token.toList ++ rest) → Reads text no cs r) :
    Reads text (do if ← eatIf asked token then yes else no) cs r := by
  cases asked with
  | true => exact .ifEats (hyes rfl) fun hne => hno fun _ => hne
  | false => exact hno fun h => absurd h Bool.false_ne_true

theorem reads_atStepStart : Reads text atStepStart cs (.ok (cs.head?.any startsStep, cs)) :=
  reads_peek.seq (.pure _)

theorem reads_skipBlanksWithin {steps : ℕ} (h : cs.length < steps) :
    Reads text (skipBlanksWithin steps) cs (.ok ((), skipBlank cs)) := by
  induction steps generalizing cs with
  | zero => omega
  | succ steps ih =>
    refine reads_peek.seq ?_
    cases cs with
    | nil => exact .pure _
    | cons d ds =>
      change Reads text (if Text.isBlank d then _ else _) _ _
      cases hd : Text.isBlank d with
      | true =>
        have hskip : skipBlank (d :: ds) = skipBlank ds := List.dropWhile_cons_of_pos hd
        rw [hskip, ← byteLength_singleton]
        exact (reads_advance [d] ds).seq (ih (Nat.lt_of_succ_lt_succ h))
      | false =>
        have hskip : skipBlank (d :: ds) = d :: ds := List.dropWhile_cons_of_neg (by simp [hd])
        rw [hskip]
        exact .pure _

/-- There are never more blank characters than characters. -/
theorem reads_skipBlanks : Reads text skipBlanks cs (.ok ((), skipBlank cs)) := by
  intro c hc
  exact reads_skipBlanksWithin (Nat.lt_succ_of_le hc.faces.length_le) c hc

theorem prefix_nameTail (colonSeen : Bool) (cs : List Char) : nameTail colonSeen cs <+: cs := by
  induction cs generalizing colonSeen with
  | nil => exact List.prefix_refl []
  | cons c cs ih =>
    unfold nameTail
    split_ifs with hcolon hend hpart
    · exact List.nil_prefix
    · exact (List.prefix_cons_inj c).2 (ih true)
    · exact (List.prefix_cons_inj c).2 (ih colonSeen)
    · exact List.nil_prefix

/-- After its first character a name is measured as it is read. Whether it has had its colon is seen
from the slice before the cursor. -/
theorem nameLength?_tail {before : List Char} (hne : before ≠ []) (cs : List Char) :
    nameLength? (String.ofList (before ++ cs)) (byteLength before) (byteLength before) cs =
      some (byteLength before + byteLength (nameTail (decide (':' ∈ before)) cs)) := by
  induction cs generalizing before with
  | nil => rfl
  | cons c cs ih =>
    have hindex : byteLength before ≠ 0 := (byteLength_pos hne).ne'
    have hgoes (colonSeen : Bool) (hseen : decide (':' ∈ before ++ [c]) = colonSeen) :
        nameLength? (String.ofList (before ++ c :: cs)) (byteLength before + c.utf8Size)
          (byteLength before + c.utf8Size) cs =
            some (byteLength before + byteLength (c :: nameTail colonSeen cs)) := by
      have hnext := @ih (before ++ [c]) (by simp)
      rw [List.append_assoc, List.singleton_append, byteLength_append, byteLength_singleton,
        hseen] at hnext
      rw [hnext, byteLength_cons, Nat.add_assoc]
    unfold nameLength? nameTail belongs?
    rw [if_neg hindex]
    by_cases hcolon : c = ':'
    · subst hcolon
      rw [if_pos rfl, if_pos rfl, (slices_append before (':' :: cs)).2]
      cases hnext : cs.head? == some ':' with
      | true => simp [byteLength_nil]
      | false =>
        by_cases hseen : ':' ∈ before
        · simp [hseen, byteLength_nil]
        · simpa [hseen] using hgoes true (by simp)
    · have hseen : decide (':' ∈ before ++ [c]) = decide (':' ∈ before) := by
        simp [Ne.symm hcolon]
      rw [if_neg hcolon, if_neg hcolon]
      cases hpart : Text.isLetterOrNumber c || c == '-' || c == '_' || c == '.' with
      | true => simpa using hgoes _ hseen
      | false => simp [byteLength_nil]

theorem readName?_cons (c : Char) (cs : List Char) :
    readName? (c :: cs) = if (Text.isLetter c || c == '_') = true then
      some (c :: nameTail false cs, cs.drop (nameTail false cs).length) else none := rfl

/-- A name is measured as it is read: what there is none of has no length. -/
theorem nameLength?_eq (cs : List Char) :
    nameLength? (String.ofList cs) 0 0 cs =
      some (((readName? cs).map fun read => byteLength read.1).getD 0) := by
  cases cs with
  | nil => rfl
  | cons c cs =>
    rw [readName?_cons]
    unfold nameLength? belongs?
    cases hfirst : Text.isLetter c || c == '_' with
    | true =>
      have hother : c ≠ ':' := by
        rintro rfl
        exact absurd hfirst (by decide)
      have hcolon : decide (':' ∈ [c]) = false := by simp [Ne.symm hother]
      have htail := nameLength?_tail (List.cons_ne_nil c []) cs
      rw [hcolon, List.singleton_append, byteLength_singleton] at htail
      change nameLength? _ (0 + c.utf8Size) (0 + c.utf8Size) cs = some (byteLength (c :: _))
      rw [Nat.zero_add, byteLength_cons, htail]
    | false => rfl

/-- What is read as a name is at the front, and is not empty. -/
theorem eq_append_of_readName? {name rest : List Char} (h : readName? cs = some (name, rest)) :
    cs = name ++ rest ∧ name ≠ [] := by
  cases cs with
  | nil => cases h
  | cons c cs =>
    rw [readName?_cons] at h
    split at h
    · obtain ⟨rfl, rfl⟩ := Prod.mk.inj (Option.some.inj h)
      exact ⟨congrArg (c :: ·) (List.prefix_append_drop (prefix_nameTail false cs)),
        List.cons_ne_nil _ _⟩
    · cases h

theorem reads_name_of_some {name rest : List Char} (h : readName? cs = some (name, rest)) :
    Reads text Reading.name cs (.ok (String.ofList name, rest)) := by
  obtain ⟨rfl, hne⟩ := eq_append_of_readName? h
  intro c hc
  have hlength : nameLength? (String.ofList (name ++ rest)) 0 0 (name ++ rest) =
      some (byteLength name) := by
    rw [nameLength?_eq, h]
    rfl
  unfold Reading.name
  simp only [runOn_bind, runOn_get, run_rest hc, String.toList_ofList, hlength, given, runOn_pure,
    if_neg (byteLength_pos hne).ne', runOn_moveTo, runOn_read, hc.faces.slice?_eq]
  exact .ok (hc.faces.advance.stands hc.visited) (List.suffix_append name rest)

theorem reads_name_of_none (h : readName? cs = none) :
    Reads text name cs (.error ⟨cs, .noName⟩) := by
  intro c hc
  have hlength : nameLength? (String.ofList cs) 0 0 cs = some 0 := by
    rw [nameLength?_eq, h]
    rfl
  unfold Reading.name
  simp only [runOn_bind, runOn_get, run_rest hc, String.toList_ofList, hlength, given, runOn_pure,
    if_pos]
  exact Reads.fail _ c hc

/-- A name before two colons has to be that of an axis. -/
theorem readAxis_of_colons {name rest : List Char}
    (h : readName? cs = some (name, ':' :: ':' :: rest)) :
    readAxis cs = (Axis.ofName? (String.ofList name)).elim (.error ⟨cs, .unknownAxis⟩)
      fun axis => .ok (some axis, rest) := by
  unfold readAxis
  rw [h]
  cases haxis : Axis.ofName? (String.ofList name) <;> simp [haxis]

/-- An axis is read, or the cursor is moved back to the name that is none. -/
theorem reads_axisPrefix : Reads text axisPrefix cs (readAxis cs) := by
  intro c hc
  unfold axisPrefix
  simp only [runOn_bind, runOn_get, runOn_attempt]
  cases hname : readName? cs with
  | none =>
    have haxis : readAxis cs = .ok (none, cs) := by
      unfold readAxis
      rw [hname]
    obtain ⟨_, c', hrun, -, hvisited⟩ := (reads_name_of_none hname c hc).exists_of_fault
    rw [hrun, haxis]
    exact .ok (hc.faces.stands hvisited) (List.suffix_refl cs)
  | some read =>
    obtain ⟨name, rest⟩ := read
    obtain ⟨c', hrun, hc', hsuffix⟩ := (reads_name_of_some hname c hc).exists_of_ok
    simp only [hrun, runOn_bind]
    by_cases hcolons : ∃ more, rest = "::".toList ++ more
    · obtain ⟨more, rfl⟩ := hcolons
      obtain ⟨c'', heat, hc'', hmore⟩ := (reads_eat "::" more c' hc').exists_of_ok
      rw [heat, readAxis_of_colons hname]
      cases Axis.ofName? (String.ofList name) with
      | some axis => exact .ok hc'' (hmore.trans hsuffix)
      | none => exact .fault hc.faces (hc.faces.stands hc''.visited).visited
    · have hne : ∀ more, rest ≠ "::".toList ++ more := fun more hmore => hcolons ⟨more, hmore⟩
      have haxis : readAxis cs = .ok (none, cs) := by
        unfold readAxis
        rw [hname]
        split
        · next heq =>
          obtain ⟨-, rfl⟩ := Prod.mk.inj (Option.some.inj heq)
          exact absurd rfl (hne _)
        · rfl
      obtain ⟨c'', heat, hc'', -⟩ := (reads_eat_of_ne hne c' hc').exists_of_ok
      rw [heat, haxis]
      exact .ok (hc.faces.stands hc''.visited) (List.suffix_refl cs)

/-- A step leads to attributes, along its axis or else to the children. -/
theorem reads_axis (hat : ∀ rest, cs ≠ '@' :: rest) :
    Reads text axis cs ((readAxis cs).map fun read => (read.1.getD .child, read.2)) := by
  refine .ifEats ?_ fun _ => reads_axisPrefix.map
  rintro rest rfl
  exact absurd rfl (hat rest)

theorem numberLength_eq {index : ℕ} (hindex : index ≠ 0) (cs : List Char) :
    numberLength index cs =
      index + byteLength (cs.takeWhile fun c => Decimal.isDigit c || c == '.') := by
  induction cs generalizing index with
  | nil => rfl
  | cons c cs ih =>
    unfold numberLength
    rw [List.takeWhile_cons]
    cases hpart : Decimal.isDigit c || c == '.' with
    | true =>
      have hnext := @ih (index + c.utf8Size) (by omega)
      simpa [byteLength_cons, Nat.add_assoc] using hnext
    | false => simp [hindex, byteLength_nil]

/-- A number is measured as it is read. -/
theorem numberLength_zero (cs : List Char) : numberLength 0 cs = byteLength (numberChars cs) := by
  cases cs with
  | nil => rfl
  | cons c cs =>
    have hfirst : 0 + c.utf8Size ≠ 0 := by have := c.utf8Size_pos; omega
    have htail := numberLength_eq hfirst cs
    rw [Nat.zero_add, ← byteLength_cons] at htail
    unfold numberLength
    rw [Nat.zero_add, htail]
    by_cases hminus : c = '-'
    · subst hminus
      rfl
    · have hchars : numberChars (c :: cs) =
          (c :: cs).takeWhile fun c => Decimal.isDigit c || c == '.' := by
        rw [numberChars]
        rintro _ hcons
        exact hminus (List.cons_eq_cons.1 hcons).1
      rw [hchars, List.takeWhile_cons]
      cases hpart : Decimal.isDigit c || c == '.' with
      | true => simp
      | false => simp [hminus, byteLength_nil]

theorem prefix_numberChars (cs : List Char) : numberChars cs <+: cs := by
  unfold numberChars
  split
  · exact (List.prefix_cons_inj '-').2 <| List.takeWhile_prefix _
  · exact List.takeWhile_prefix _

theorem reads_number : Reads text number cs (readNumber cs) := by
  have hsplit := (List.prefix_append_drop (prefix_numberChars cs)).symm
  have hslice := (slices_append (numberChars cs) (cs.drop (numberChars cs).length)).2
  have hadvance : Reads text _ _ _ :=
    reads_advance (numberChars cs) (cs.drop (numberChars cs).length)
  rw [hsplit] at hslice hadvance
  unfold number readNumber
  refine reads_rest.seq ?_
  rw [String.toList_ofList, numberLength_zero]
  dsimp only
  rw [hslice]
  refine (Reads.pure _).seq ?_
  rw [String.toList_ofList]
  cases Decimal.readFloat? (numberChars cs) with
  | none => exact .fail _
  | some x => exact hadvance.seq (.pure x)

/-- What comes before the first occurrence of a character is measured as it is read. -/
theorem offsetOf?_eq (q : Char) (cs : List Char) :
    offsetOf? q cs = if cs.dropWhile (· != q) = [] then none
      else some (byteLength (cs.takeWhile (· != q))) := by
  induction cs with
  | nil => rfl
  | cons c cs ih =>
    unfold offsetOf?
    rw [List.dropWhile_cons, List.takeWhile_cons]
    by_cases hc : c = q
    · simp [hc, byteLength_nil]
    · have hother : (c != q) = true := bne_iff_ne.2 hc
      rw [if_neg hc, if_pos hother, if_pos hother, ih, byteLength_cons]
      split <;> rfl

/-- The closing quote of a text is one byte, as the opening one is. -/
theorem reads_literal : Reads text literal cs (readLiteral cs) := by
  unfold literal
  refine reads_peek.seq ?_
  cases cs with
  | nil => exact .fail _
  | cons c cs =>
    rw [List.head?_cons, readLiteral]
    dsimp only
    split_ifs with hquote hnumber
    · have hsize : byteLength [c] = 1 := by
        rcases hquote with rfl | rfl <;> rfl
      have hopen : Reads text _ _ _ := reads_advance [c] cs
      rw [hsize] at hopen
      refine hopen.seq (reads_rest.seq ?_)
      have hspan := List.takeWhile_append_dropWhile (p := (· != c)) (l := cs)
      rw [String.toList_ofList, offsetOf?_eq, List.span_eq_takeWhile_dropWhile]
      generalize cs.takeWhile (· != c) = content at hspan ⊢
      generalize hdrop : cs.dropWhile (· != c) = after at hspan ⊢
      cases after with
      | nil => exact .fail _
      | cons d after =>
        obtain rfl : d = c := by
          have hd := List.head?_dropWhile_not (· != c) cs
          rw [hdrop] at hd
          simpa using hd
        have hclose : Reads text _ _ _ := reads_advance (content ++ [d]) after
        rw [byteLength_append, hsize, List.append_assoc, List.singleton_append, hspan] at hclose
        have hslice := (slices_append content (d :: after)).2
        rw [hspan] at hslice
        rw [if_neg (List.cons_ne_nil _ _)]
        dsimp only
        rw [hslice]
        exact (Reads.pure _).seq (hclose.seq (.pure _))
    · exact reads_number.map
    · exact .fail _

theorem ofList_eq_iff {s : String} : String.ofList cs = s ↔ cs = s.toList :=
  ⟨fun h => by rw [← h, String.toList_ofList], fun h => by rw [h, String.ofList_toList]⟩

theorem reads_test (axis : Axis) : Reads text (test axis) cs (readTest axis cs) := by
  unfold test
  refine .ifEats ?_ fun hstar => ?_
  · rintro rest rfl
    exact .pure _
  · rw [readTest]
    · cases hname : readName? cs with
      | none => exact (reads_name_of_none hname).stop
      | some read =>
        obtain ⟨name, rest⟩ := read
        refine (reads_name_of_some hname).seq ?_
        dsimp only
        rw [String.toList_ofList]
        refine .ifEatsIf ?_ fun htext => .ifEatsIf ?_ fun hnode => ?_
        · rintro hasked after rfl
          obtain ⟨haxis, hname⟩ := of_decide_eq_true hasked
          have hchars : name = ['t', 'e', 'x', 't'] := ofList_eq_iff.1 hname
          change Reads text _ after
            (if axis ≠ .attributes ∧ name = ['t', 'e', 'x', 't'] then _ else _)
          rw [if_pos ⟨haxis, hchars⟩]
          exact .pure _
        · rintro hasked after rfl
          have hchars : name = ['n', 'o', 'd', 'e'] := ofList_eq_iff.1 (of_decide_eq_true hasked)
          subst hchars
          change Reads text _ after
            (if axis ≠ .attributes ∧ _ = ['t', 'e', 'x', 't'] then _ else _)
          rw [if_neg (by simp), if_pos rfl]
          exact .pure _
        · split
          · next after =>
            rw [if_neg, if_neg]
            · exact .pure _
            · intro hname
              exact hnode (decide_eq_true (ofList_eq_iff.2 hname)) after rfl
            · rintro ⟨haxis, hname⟩
              exact htext (decide_eq_true ⟨haxis, ofList_eq_iff.2 hname⟩) after rfl
          · exact .pure _
    · exact hstar

end Parts

/-- A test is of at least one character. -/
theorem length_lt_of_readTest {axis : Axis} {test : NodeTest} {rest : List Char}
    (h : readTest axis cs = .ok (test, rest)) : rest.length < cs.length := by
  unfold readTest at h
  split at h
  · obtain ⟨-, rfl⟩ := Prod.mk.inj (Except.ok.inj h)
    exact Nat.lt_succ_self _
  · split at h
    · cases h
    · next name more hname =>
      obtain ⟨rfl, hne⟩ := eq_append_of_readName? hname
      have hmore : rest.length ≤ more.length := by
        split at h
        · split_ifs at h
          all_goals
            obtain ⟨-, rfl⟩ := Prod.mk.inj (Except.ok.inj h)
            simp only [List.length_cons]
            omega
        · obtain ⟨-, rfl⟩ := Prod.mk.inj (Except.ok.inj h)
          exact le_rfl
      have hpos := List.length_pos_of_ne_nil hne
      rw [List.length_append]
      omega

section Grammar

theorem skipBlank_suffix (cs : List Char) : skipBlank cs <:+ cs := List.dropWhile_suffix _

-- The induction is on the steps. Five of them are enough for each character: they take the cursor
-- from a path through steps, a step, and conditions to a condition, and on the way two characters
-- are read.
mutual

theorem reads_path (fuel : ℕ) (cs : List Char) (h : 5 * cs.length + 5 ≤ fuel) :
    Reads text (path fuel) cs (readPath fuel cs) := by
  match fuel with
  | 0 => omega
  | fuel + 1 =>
    rw [path]
    refine .ifEats ?_ fun hdouble => .ifEats ?_ fun hslash => ?_
    · rintro rest rfl
      change 5 * (rest.length + 2) + 5 ≤ fuel + 1 at h
      change Reads text _ rest (readPath (fuel + 1) ('/' :: '/' :: rest))
      rw [readPath]
      exact (reads_steps fuel rest (by omega)).bind fun steps rest _ _ => .pure _
    · rintro rest rfl
      change 5 * (rest.length + 1) + 5 ≤ fuel + 1 at h
      change Reads text _ rest (readPath (fuel + 1) ('/' :: rest))
      rw [readPath]
      · refine reads_atStepStart.seq ?_
        split
        · exact (reads_steps fuel rest (by omega)).bind fun steps rest _ _ => .pure _
        · exact .pure _
      · rintro more rfl
        exact hdouble more rfl
    · rw [readPath]
      · exact (reads_steps fuel cs (by omega)).bind fun steps rest _ _ => .pure _
      · exact hdouble
      · exact hslash

theorem reads_steps (fuel : ℕ) (cs : List Char) (h : 5 * cs.length + 4 ≤ fuel) :
    Reads text (steps fuel) cs (readSteps fuel cs) := by
  match fuel with
  | 0 => omega
  | fuel + 1 =>
    rw [steps, readSteps]
    refine (reads_step fuel cs (by omega)).bind fun first rest _ hsuffix => ?_
    dsimp only
    refine .ifEats ?_ fun hdouble => .ifEats ?_ fun hslash => ?_
    · rintro more rfl
      have hlength : more.length + 2 ≤ cs.length := hsuffix.length_le
      exact (reads_steps fuel more (by omega)).bind fun steps rest _ _ => .pure _
    · rintro more rfl
      have hlength : more.length + 1 ≤ cs.length := hsuffix.length_le
      split
      · next heq => exact absurd heq (hdouble _)
      · next heq =>
        rw [← (List.cons_eq_cons.1 heq).2]
        exact (reads_steps fuel more (by omega)).bind fun steps rest _ _ => .pure _
      · next hother => exact absurd rfl (hother more)
    · split
      · exact absurd rfl (hdouble _)
      · exact absurd rfl (hslash _)
      · exact .pure _

theorem reads_step (fuel : ℕ) (cs : List Char) (h : 5 * cs.length + 3 ≤ fuel) :
    Reads text (step fuel) cs (readStep fuel cs) := by
  match fuel with
  | 0 => omega
  | fuel + 1 =>
    rw [step]
    refine .ifEats ?_ fun hparent => .ifEats ?_ fun hself => ?_
    · rintro rest rfl
      exact .pure _
    · rintro rest rfl
      change Reads text _ rest (readStep (fuel + 1) ('.' :: rest))
      rw [readStep]
      · exact .pure _
      · rintro more rfl
        exact hparent more rfl
    · have htested (axis : Axis) (rest : List Char) (hlength : rest.length ≤ cs.length) :
          Reads text (do return Step.mk axis (← test axis) (← conditions fuel)) rest (do
            let (test, rest) ← readTest axis rest
            let (conditions, rest) ← readConditions fuel rest
            pure (Step.mk axis test conditions, rest)) :=
        (reads_test axis).bind fun test rest' hread _ => by
          have hshorter := length_lt_of_readTest hread
          exact (reads_conditions fuel rest' (by omega)).bind fun conditions rest _ _ => .pure _
      by_cases hat : ∃ rest, cs = '@' :: rest
      · obtain ⟨rest, rfl⟩ := hat
        have haxis : Reads text axis ('@' :: rest) (.ok (.attributes, rest)) :=
          (reads_eat "@" rest).seq (.pure _)
        exact haxis.seq (htested .attributes rest (Nat.le_succ _))
      · have hne : ∀ rest, cs ≠ '@' :: rest := fun rest hrest => hat ⟨rest, hrest⟩
        have haxis : readStep (fuel + 1) cs = (do
            let (axis, rest) ← (readAxis cs).map fun read => (read.1.getD .child, read.2)
            let (test, rest) ← readTest axis rest
            let (conditions, rest) ← readConditions fuel rest
            pure (Step.mk axis test conditions, rest)) := by
          rw [readStep]
          · cases readAxis cs <;> rfl
          · exact hparent
          · exact hself
          · exact hne
        rw [haxis]
        exact (reads_axis hne).bind fun axis rest _ hsuffix => htested axis rest hsuffix.length_le

theorem reads_conditions (fuel : ℕ) (cs : List Char) (h : 5 * cs.length + 7 ≤ fuel) :
    Reads text (conditions fuel) cs (readConditions fuel cs) := by
  match fuel with
  | 0 => omega
  | fuel + 1 =>
    rw [conditions, readConditions]
    refine reads_skipBlanks.seq ?_
    have hlength := (skipBlank_suffix cs).length_le
    generalize skipBlank cs = rest at hlength ⊢
    refine .ifEats ?_ fun hbracket => ?_
    · rintro more rfl
      change more.length + 1 ≤ cs.length at hlength
      refine (reads_condition fuel more (by omega)).bind fun first rest _ hsuffix => ?_
      dsimp only
      refine reads_skipBlanks.seq ?_
      have hlength' := ((skipBlank_suffix rest).trans hsuffix).length_le
      generalize skipBlank rest = rest at hlength' ⊢
      refine .ifEats ?_ fun hclosed => ?_
      · rintro more' rfl
        change more'.length + 1 ≤ more.length at hlength'
        exact (reads_conditions fuel more' (by omega)).bind fun conditions rest _ _ => .pure _
      · split
        · next more' => exact absurd rfl (hclosed more')
        · exact .fail _
    · split
      · next more => exact absurd rfl (hbracket more)
      · exact .pure _

theorem reads_condition (fuel : ℕ) (cs : List Char) (h : 5 * cs.length + 6 ≤ fuel) :
    Reads text (condition fuel) cs (readCondition fuel cs) := by
  match fuel with
  | 0 => omega
  | fuel + 1 =>
    rw [condition, readCondition]
    refine reads_skipBlanks.seq (reads_peek.seq ?_)
    have hlength := (skipBlank_suffix cs).length_le
    dsimp only
    generalize skipBlank cs = cs at hlength ⊢
    split
    · refine reads_number.bind fun x rest _ _ => ?_
      dsimp only
      cases positionOf? x with
      | some n => exact .pure _
      | none => exact .fail _
    · refine (reads_path fuel cs (by omega)).bind fun path rest _ _ => ?_
      dsimp only
      refine reads_skipBlanks.seq ?_
      generalize skipBlank rest = rest
      refine .ifEats ?_ fun hdiffers => .ifEats ?_ fun hequals => ?_
      · rintro more rfl
        exact reads_skipBlanks.seq (reads_literal.bind fun literal rest _ _ => .pure _)
      · rintro more rfl
        exact reads_skipBlanks.seq (reads_literal.bind fun literal rest _ _ => .pure _)
      · split
        · next more => exact absurd rfl (hdiffers more)
        · next more => exact absurd rfl (hequals more)
        · exact .pure _

end

/-- What reading to the end leaves over is nothing. -/
def toEnd (r : Except Fault (List Path)) : Except Fault (List Path × List Char) :=
  r.map fun paths => (paths, [])

theorem toEnd_bind (r : Except Fault (α × List Char))
    (n : α × List Char → Except Fault (List Path)) :
    toEnd (r >>= n) = r >>= fun read => toEnd (n read) := by
  cases r <;> rfl

theorem toEnd_cons (first : Path) (r : Except Fault (List Path)) :
    toEnd (r >>= fun more => pure (first :: more)) =
      toEnd r >>= fun read => .ok (first :: read.1, read.2) := by
  cases r <;> rfl

theorem reads_branches (fuel : ℕ) (cs : List Char) (h : 5 * cs.length + 6 ≤ fuel) :
    Reads text (branches fuel) cs (toEnd (readBranches fuel cs)) := by
  induction fuel generalizing cs with
  | zero => omega
  | succ fuel ih =>
    rw [branches, readBranches, toEnd_bind]
    refine (reads_path fuel cs (by omega)).bind fun first rest _ hsuffix => ?_
    dsimp only
    refine reads_skipBlanks.seq ?_
    have hlength := ((skipBlank_suffix rest).trans hsuffix).length_le
    generalize skipBlank rest = rest at hlength ⊢
    refine .ifEats ?_ fun hbar => reads_atEnd.seq ?_
    · rintro more rfl
      change more.length + 1 ≤ cs.length at hlength
      have hlength' := (skipBlank_suffix more).length_le
      change Reads text _ _ (toEnd (readBranches fuel (skipBlank more) >>= _))
      rw [toEnd_cons]
      exact reads_skipBlanks.seq ((ih _ (by omega)).bind fun others rest _ _ => .pure _)
    · cases rest with
      | nil => exact .pure _
      | cons c more =>
        change Reads text (fail .unexpected) _ _
        split
        · next h => cases h
        · next more' heq => exact absurd heq (hbar more')
        · exact .fail _

end Grammar

/-- Reading a selector with a cursor gives what reading its characters gives. -/
theorem reads_selector (s : String) : Reads s selector s.toList (toEnd (readAll s.toList)) := by
  refine reads_skipBlanks.seq (reads_atEnd.seq ?_)
  have hlength := (skipBlank_suffix s.toList).length_le
  unfold readAll
  cases hskip : skipBlank s.toList with
  | nil => exact .fail _
  | cons c cs =>
    rw [hskip] at hlength
    have hfuel : 5 * (c :: cs).length + 6 ≤ fuelFor s.toList.length := by
      unfold fuelFor
      omega
    have hbranches : Reads s _ _ _ := reads_branches _ _ hfuel
    rw [List.isEmpty_cons, if_neg Bool.false_ne_true]
    rw [String.length_toList] at hbranches ⊢
    exact .read hbranches

end Reading

end DataQuality.Selector
