import DataQuality.Proofs.Json.Codec
import DataQuality.Proofs.Keyed
import DataQuality.Store.Directory

/-!
# Organisations read back

The text of a file of organisations is read back as the organisations. Its fields are
named by packages: a name is an integer as it is written anywhere else.
-/
namespace DataQuality

open Json (IsPlain)

theorem Decimal.toList_ofInt (i : Int) : (ofInt i).toList = (Literal.ofInt i).chars := by
  unfold ofInt
  rw [String.toList_ofList]
  cases i with
  | ofNat n => simp [intChars, Literal.chars, Literal.ofInt]
  | negSucc n => simp [intChars, Literal.chars, Literal.ofInt, Int.natAbs]

/-- A digit is written as itself. -/
theorem Json.escapedChar_digit {c : Char} (h : Decimal.isDigit c = true) : escapedChar c = [c] := by
  obtain ⟨hlow, hhigh⟩ := Decimal.toNat_of_isDigit h
  rw [← Char.ofNat_toNat c]
  generalize c.toNat = n at hlow hhigh
  interval_cases n <;> decide

namespace Id

variable {kind : IdKind}

theorem toList_text (i : Id kind) : i.text.toList = (Decimal.Literal.ofInt i.toInt).chars :=
  Decimal.toList_ofInt i.toInt

theorem isPlain_text (i : Id kind) : IsPlain i.text := by
  intro c hc
  rw [toList_text] at hc
  have hchars : (Decimal.Literal.ofInt i.toInt).chars =
      (if i.toInt < 0 then ['-'] else []) ++ Decimal.natDigits i.toInt.natAbs := by
    simp [Decimal.Literal.chars, Decimal.Literal.ofInt]
  rw [hchars] at hc
  rcases List.mem_append.1 hc with hsign | hdigit
  · split at hsign
    · obtain rfl : c = '-' := by simpa using hsign
      decide
    · cases hsign
  · exact Json.escapedChar_digit (Decimal.isDigit_of_mem_natDigits hdigit)

end Id

namespace DirectoryStore

theorem packageOfName?_text (p : PackageId) : packageOfName? (.ofString p.text) = some p := by
  have hread : Json.readNumber? p.text.toList = some (Decimal.Literal.ofInt p.toInt, []) := by
    have hstops : Json.StopsNumber [] := by simp [Json.StopsNumber]
    have hspells := Json.spellsNumber_chars (Decimal.Literal.regular_ofInt p.toInt)
    have hchars := hspells.readNumber?_append hstops
    rwa [List.append_nil, ← p.toList_text] at hchars
  unfold packageOfName? Json.Name.ofString
  simp only [Bool.not_true, Bool.false_eq_true, if_false, Option.bind_some, hread]
  unfold Id.toInt
  rw [Json.integer?_ofInt64, Option.bind_some, Decimal.int64?_toInt]
  rfl

theorem asTarget?_ofTarget (t : Target) : asTarget? (ofTarget t) = some t := by
  unfold asTarget? ofTarget
  rw [Json.asRecord?_record (by rfl)]
  simp +decide [Json.Fields.required, Json.Fields.get?, Json.valuesOf]

theorem writable_ofTarget (t : Target) : (ofTarget t).Writable := by
  apply Json.writable_record
  simp +decide only [List.forall_mem_cons, List.not_mem_nil, false_implies, implies_true,
    Json.writable_ofId, Json.writable_ofString, and_true]

def ofOrganisations (organisations : List (PackageId × List Target)) : Json :=
  Json.record (organisations.map fun (p, targets) => (p.text, .array (targets.map ofTarget)))

theorem writable_ofOrganisations (organisations : List (PackageId × List Target)) :
    (ofOrganisations organisations).Writable := by
  apply Json.writable_record
  intro f hf
  obtain ⟨⟨p, targets⟩, -, rfl⟩ := List.mem_map.1 hf
  exact ⟨p.isPlain_text, Json.writable_array fun t _ => writable_ofTarget t⟩

/-- Organisations in the order of their packages are read back. -/
theorem asOrganisations?_ofOrganisations {organisations : List (PackageId × List Target)}
    (h : Keyed.Ordered Id.before organisations) :
    asOrganisations? (ofOrganisations organisations) = some organisations := by
  let field (entry : PackageId × List Target) : Json.Name × Json :=
    (.ofString entry.1.text, .array (entry.2.map ofTarget))
  let read (f : Json.Name × Json) : Option (PackageId × List Target) := do
    pure ((← packageOfName? f.1), (← f.2.asList? asTarget?))
  have hread (entry : PackageId × List Target) : read (field entry) = some entry := by
    change (do
      pure ((← packageOfName? (.ofString entry.1.text)),
        (← (Json.array (entry.2.map ofTarget)).asList? asTarget?))) = some entry
    rw [packageOfName?_text, Json.asList?_array fun t _ => asTarget?_ofTarget t]
    rfl
  have hpairs : (organisations.map field).mapM read = some organisations :=
    Json.mapM_map_of_inverse fun entry _ => hread entry
  have hfields : ofOrganisations organisations = .object (organisations.map field) := by
    unfold ofOrganisations Json.record
    rw [List.map_map]
    rfl
  have hinsert : organisations.foldl (fun all p => Keyed.insert Id.before p.1 p.2 all) [] =
      [] ++ organisations := Keyed.foldl_insert (Id.isOrder_before .package) h
  rw [hfields]
  change ((organisations.map field).mapM read >>= fun pairs =>
    some (pairs.foldl (fun all p => Keyed.insert Id.before p.1 p.2 all) [])) = some organisations
  rw [hpairs, Option.bind_eq_bind, Option.bind_some, hinsert, List.nil_append]

/-- The text of a file of organisations is read back. -/
theorem asOrganisations?_organisationsText {organisations : List (PackageId × List Target)}
    (h : Keyed.Ordered Id.before organisations) :
    (Json.parse (organisationsText organisations)).bind asOrganisations? = some organisations := by
  have hparse : Json.parse (organisationsText organisations) = some (ofOrganisations organisations) :=
    Json.parse_pretty (writable_ofOrganisations organisations)
  rw [hparse, Option.bind_some, asOrganisations?_ofOrganisations h]

/-- Organisations that are read are in the order of their packages. -/
theorem ordered_of_asOrganisations? {j : Json} {organisations : List (PackageId × List Target)}
    (h : asOrganisations? j = some organisations) : Keyed.Ordered Id.before organisations := by
  unfold asOrganisations? at h
  split at h
  · obtain ⟨pairs, -, hpairs⟩ := Option.bind_eq_some_iff.1 h
    obtain rfl := Option.some.inj hpairs
    exact Keyed.ordered_foldl_insert (Id.isOrder_before .package) pairs List.Pairwise.nil
  · cases h

theorem ordered_of_loadOrganisations {t : Files.Tree} {directory : Files.Route}
    {organisations : List (PackageId × List Target)}
    (h : loadOrganisations t directory = .ok organisations) :
    Keyed.Ordered Id.before organisations := by
  unfold loadOrganisations at h
  split at h
  · obtain rfl := Except.ok.inj h
    exact List.Pairwise.nil
  · cases h
  · split at h
    · next hread =>
      obtain rfl := Except.ok.inj h
      obtain ⟨j, -, hj⟩ := Option.bind_eq_some_iff.1 hread
      exact ordered_of_asOrganisations? hj
    · cases h

end DirectoryStore

end DataQuality
