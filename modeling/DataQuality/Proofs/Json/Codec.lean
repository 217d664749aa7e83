import DataQuality.Json.Domain
import DataQuality.Proofs.Json.Spelling

/-!
# Data read back from values

Integers, identifiers and counts have values of their own that are read back as
them. A record whose fields have different names gives each field back.
-/
namespace DataQuality.Json

open Decimal (Literal)

/-- An integer that fits into 64 bits, with or without a sign, is read back. -/
theorem integer?_ofInt {i : Int} (hmin : Decimal.minInt64 ≤ i) (hmax : i ≤ maxUInt64) :
    integer? (.ofInt i) = some i := by
  unfold Decimal.minInt64 at hmin
  unfold maxUInt64 at hmax
  unfold integer? Literal.ofInt
  simp only [Option.isSome_none, Bool.or_self, Bool.false_eq_true, if_false,
    Decimal.natOfDigits_natDigits, decide_eq_true_eq]
  by_cases hi : i < 0
  · have hsize : ¬ Decimal.minInt64.natAbs < i.natAbs := by
      unfold Decimal.minInt64
      omega
    have hzero : i.natAbs ≠ 0 := by omega
    rw [if_pos hi, if_neg (by simp [hsize, hzero])]
    congr 1
    omega
  · have hsize : i.natAbs ≤ maxUInt64 := by
      unfold maxUInt64
      omega
    rw [if_neg hi, if_pos hsize]
    congr 1
    omega

theorem integer?_ofInt64 (i : Int64) : integer? (.ofInt i.toInt) = some i.toInt := by
  have hmin := i.le_toInt
  have hmax := i.toInt_lt
  exact integer?_ofInt (by unfold Decimal.minInt64; omega) (by unfold maxUInt64; omega)

theorem integer?_ofUInt64 (n : UInt64) : integer? (.ofInt n.toNat) = some n.toNat := by
  have hmax := n.toNat_lt
  exact integer?_ofInt (by unfold Decimal.minInt64; omega) (by unfold maxUInt64; omega)

@[simp] theorem asInt64?_ofInt (i : Int64) : (ofInt i.toInt).asInt64? = some i := by
  simp only [ofInt, asInt64?, integer?_ofInt64, Option.bind_some, Decimal.int64?_toInt]

@[simp] theorem asId?_ofId {kind : IdKind} (i : Id kind) : asId? (ofId i) = some i := by
  unfold asId? ofId Id.toInt
  rw [asInt64?_ofInt]
  rfl

@[simp] theorem asNat64?_ofInt (n : UInt64) : (ofInt n.toNat).asNat64? = some n.toNat := by
  simp [ofInt, asNat64?, integer?_ofUInt64]

/-- A number is held if it stands for an integer. -/
theorem isReadable_number {l : Literal} {i : Int} (h : integer? l = some i) (depth : Nat) :
    (Json.number l).isReadable depth = true := by
  simp only [isReadable, float?, h, Option.isSome_some]

@[simp] theorem isReadable_ofInt64 (i : Int64) (depth : Nat) :
    (ofInt i.toInt).isReadable depth = true := isReadable_number (integer?_ofInt64 i) depth

@[simp] theorem isReadable_ofUInt64 (n : UInt64) (depth : Nat) :
    (ofInt n.toNat).isReadable depth = true := isReadable_number (integer?_ofUInt64 n) depth

@[simp] theorem isReadable_ofId {kind : IdKind} (i : Id kind) (depth : Nat) :
    (ofId i).isReadable depth = true := isReadable_ofInt64 i.value depth

@[simp] theorem isReadable_ofString (s : String) (depth : Nat) :
    (ofString s).isReadable depth = true := by simp [ofString, isReadable]

@[simp] theorem isReadable_ofOption {α : Type} {f : α → Json} {depth : Nat}
    (h : ∀ a, (f a).isReadable depth = true) (a : Option α) :
    (ofOption f a).isReadable depth = true := by
  cases a with
  | none => simp [ofOption, isReadable]
  | some a => exact h a

theorem asOption?_ofOption {α : Type} {f : α → Json} {read : Json → Option α}
    (h : ∀ a, read (f a) = some a) (hnull : ∀ a, f a ≠ .null) (a : Option α) :
    asOption? read (ofOption f a) = some a := by
  cases a with
  | none => rfl
  | some a =>
    unfold asOption? ofOption
    split
    · next heq => exact absurd heq (hnull a)
    · rw [h]
      rfl

@[simp] theorem asOption?_ofId {kind : IdKind} (i : Option (Id kind)) :
    asOption? asId? (ofOption ofId i) = some i :=
  asOption?_ofOption asId?_ofId (fun _ h => by cases h) i

@[simp] theorem asOption?_ofString (s : Option String) :
    asOption? asString? (ofOption ofString s) = some s :=
  asOption?_ofOption asString?_ofString (fun _ h => by cases h) s

theorem areReadable_map {α : Type} {f : α → Json} {depth : Nat} {items : List α}
    (h : ∀ a ∈ items, (f a).isReadable depth = true) : areReadable (items.map f) depth = true := by
  induction items with
  | nil => rfl
  | cons a rest ih =>
    simp only [List.map_cons, areReadable, Bool.and_eq_true]
    exact ⟨h a (by simp), ih fun b hb => h b (by simp [hb])⟩

theorem areReadableFields_record {fields : List (String × Json)} {depth : Nat}
    (h : ∀ f ∈ fields, f.2.isReadable depth = true) :
    areReadableFields (fields.map fun (name, value) => (Name.ofString name, value)) depth = true := by
  induction fields with
  | nil => rfl
  | cons f rest ih =>
    simp only [List.map_cons, areReadableFields, Bool.and_eq_true]
    exact ⟨⟨rfl, h f (by simp)⟩, ih fun g hg => h g (by simp [hg])⟩

/-- A record is held if it may nest and each of its fields is held. -/
theorem isReadable_record {fields : List (String × Json)} {depth : Nat}
    (h : ∀ f ∈ fields, f.2.isReadable depth = true) :
    (record fields).isReadable (depth + 1) = true := by
  simp only [record, isReadable, Nat.add_sub_cancel, Bool.and_eq_true, decide_eq_true_eq]
  exact ⟨Nat.succ_pos depth, areReadableFields_record h⟩

theorem isReadable_array {α : Type} {f : α → Json} {depth : Nat} {items : List α}
    (h : ∀ a ∈ items, (f a).isReadable depth = true) :
    (Json.array (items.map f)).isReadable (depth + 1) = true := by
  simp only [isReadable, Nat.add_sub_cancel, Bool.and_eq_true, decide_eq_true_eq]
  exact ⟨Nat.succ_pos depth, areReadable_map h⟩

/-- The names of the fields of a record are given back. -/
theorem mapM_record (fields : List (String × Json)) :
    (fields.map fun (name, value) => (Name.ofString name, value)).mapM
      (fun (name, value) => name.content.map fun n => (n, value)) = some fields := by
  induction fields with
  | nil => rfl
  | cons f rest ih =>
    rw [List.map_cons, List.mapM_cons, ih]
    rfl

/-- A record of fields with different names is read by name. -/
theorem asRecord?_record {names : List String} {fields : List (String × Json)}
    (h : (names.all fun n => (valuesOf n fields).length ≤ 1) = true) :
    (record fields).asRecord? names = some (.named fields) := by
  unfold record asRecord?
  simp only [mapM_record, Option.bind_eq_bind, Option.bind_some, h, if_true]

instance (s : String) : Decidable (IsPlain s) :=
  List.decidableBAll (fun c => escapedChar c = [c]) s.toList

@[simp] theorem writable_ofInt (i : Int) : (ofInt i).Writable := by
  simp only [ofInt, Writable]
  exact Decimal.Literal.regular_ofInt i

@[simp] theorem writable_ofId {kind : IdKind} (i : Id kind) : (ofId i).Writable := writable_ofInt _

@[simp] theorem writable_ofString (s : String) : (ofString s).Writable := by
  simp [ofString, Writable]

@[simp] theorem writable_ofFloat (x : Float) : (ofFloat x).Writable := by
  unfold ofFloat
  split
  · simp only [Writable]
    exact Decimal.Literal.regular_ofFiniteFloat x
  · simp [Writable]

@[simp] theorem writable_ofOption {α : Type} {f : α → Json} (h : ∀ a, (f a).Writable)
    (a : Option α) : (ofOption f a).Writable := by
  cases a with
  | none => simp [ofOption, Writable]
  | some a => exact h a

theorem writable_array {α : Type} {f : α → Json} {items : List α}
    (h : ∀ a ∈ items, (f a).Writable) : (Json.array (items.map f)).Writable := by
  simp only [Writable]
  induction items with
  | nil => simp [AllWritable]
  | cons a rest ih =>
    simp only [List.map_cons, AllWritable]
    exact ⟨h a (by simp), ih fun b hb => h b (by simp [hb])⟩

/-- A record of writable values under plain names is writable. -/
theorem writable_record {fields : List (String × Json)}
    (h : ∀ f ∈ fields, IsPlain f.1 ∧ f.2.Writable) : (record fields).Writable := by
  simp only [record, Writable]
  induction fields with
  | nil => simp [FieldsWritable]
  | cons f rest ih =>
    simp only [List.map_cons, FieldsWritable]
    obtain ⟨hname, hvalue⟩ := h f (by simp)
    exact ⟨⟨f.1, rfl, hname⟩, hvalue, ih fun g hg => h g (by simp [hg])⟩

/-- What is made of each item is read back. -/
theorem mapM_map_of_inverse {α β : Type} {f : α → β} {read : β → Option α} {items : List α}
    (h : ∀ a ∈ items, read (f a) = some a) : (items.map f).mapM read = some items := by
  induction items with
  | nil => rfl
  | cons a rest ih =>
    rw [List.map_cons, List.mapM_cons, h a (by simp), ih fun b hb => h b (by simp [hb])]
    rfl

/-- A list is read back if each of its items is. -/
theorem asList?_array {α : Type} {f : α → Json} {read : Json → Option α} {items : List α}
    (h : ∀ a ∈ items, read (f a) = some a) : (Json.array (items.map f)).asList? read = some items :=
  mapM_map_of_inverse h

end DataQuality.Json
