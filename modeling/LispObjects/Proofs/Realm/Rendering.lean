import LispObjects.Proofs.Realm.Report
import LispObjects.Proofs.Realm.TypeData

namespace LispObjects.Realm

/-!
# Type specifications in messages

A message shows a type specification as the description of its data would.

* `Realm.describe_of_renders` — the description of the data for a specification, whatever else is in the
  heap;
* `Realm.render_eq_describe_specData` — that of the data as it is made;
* `Realm.message_report` — the wording of a fault for a wrong type, and the data in its condition.
-/

variable {r : Realm} {h : Heap} {spec : TypeSpec} {v : Value} {items : List Value}

/-- A specification as the messages of the realm show it. -/
def renderSpec (r : Realm) (spec : TypeSpec) : String :=
  spec.render fun c => (r.className c).name

/-- The specifications as the messages of the realm show them, each after a space. -/
def renderSpecs (r : Realm) (specs : List TypeSpec) : String :=
  TypeSpec.renderMembers (fun c => (r.className c).name) specs

/-! ### Names -/

/-- A variable symbol is described by its name alone. -/
theorem describeWith_symbol {s : Symbol} (hs : s.space = .vars) (describePair : Ref .pair → String) :
    h.describeWith describePair (.symbol s) = s.name := by
  show s.space.sigil ++ s.name = s.name
  rw [hs]
  exact String.empty_append

/-- The name of a class is described as it is. -/
theorem describeWith_className (hr : r.WellFormed) (c : ClassId)
    (describePair : Ref .pair → String) :
    h.describeWith describePair (.symbol (r.className c)) = (r.className c).name :=
  describeWith_symbol (hr.space_className c) describePair

/-- The head of unions is described as the word `or`. -/
theorem describeWith_or (hr : r.WellFormed) (describePair : Ref .pair → String) :
    h.describeWith describePair (.symbol r.names.or) = "or" := by
  obtain ⟨hspace, hname⟩ := SymbolTable.eq_of_find? hr.names.or
  rw [describeWith_symbol hspace, hname]

/-- The data of the null condition is described as messages show the condition. -/
theorem quoteString_null : Text.quoteString "null" = "\"null\"" :=
  rfl

/-! ### Lists -/

/-- A proper list is described by its items. -/
theorem describeList_of_isChain {p : Ref .pair} (hchain : h.IsChain (.pair p) items .nil)
    (hroom : items.length ≤ h.pairs.size) (depth : Nat) :
    h.describeList (depth + 1) p =
      "(" ++ " ".intercalate (items.map (h.describeWith (h.describeList depth))) ++ ")" := by
  have hspine : h.spine (.pair p) = (items, .nil) := hchain.spineUpTo (by omega)
  rw [Heap.describeList, hspine]
  show "(" ++ _ ++ "" ++ ")" = _
  rw [String.append_empty]

mutual

/-- Data is described as the specification is shown, if the depth is enough and the heap has room. -/
theorem describeWith_of_renders (hr : r.WellFormed) :
    ∀ (spec : TypeSpec) (v : Value) (depth : Nat), r.Renders h spec v → spec.pairCount ≤ depth →
      spec.pairCount ≤ h.pairs.size → h.describeWith (h.describeList depth) v = r.renderSpec spec
  | .any, _, _, hv, _, _ => by
    obtain rfl := hv
    exact describeWith_className hr _ _
  | .null, _, _, hv, _, _ => by
    obtain rfl := hv
    exact quoteString_null
  | .tag _, _, _, hv, _, _ => by
    obtain rfl := hv
    rfl
  | .ofClass c, _, _, hv, _, _ => by
    obtain rfl := hv
    exact describeWith_className hr c _
  | .oneOf members, _, depth, ⟨items, hchain, hitems⟩, hdepth, hroom => by
    have hlength := hitems.length_eq
    rw [TypeSpec.pairCount] at hdepth hroom
    -- the pair at the head takes one of the depth
    obtain ⟨depth, rfl⟩ : ∃ d, depth = d + 1 := ⟨depth - 1, by omega⟩
    have hwhole := hchain
    obtain ⟨p, rfl, -⟩ := hchain
    show h.describeList (depth + 1) p = "(or" ++ r.renderSpecs members ++ ")"
    rw [describeList_of_isChain hwhole (by rw [List.length_cons]; omega), List.map_cons,
      describeWith_or hr, intercalate_of_rendersAll hr members items depth "or" hitems (by omega)
        (by omega), ← String.append_assoc]
    rfl

/-- The descriptions of the members, with spaces between, after a first text. -/
theorem intercalate_of_rendersAll (hr : r.WellFormed) :
    ∀ (specs : List TypeSpec) (items : List Value) (depth : Nat) (first : String),
      r.RendersAll h specs items → TypeSpec.pairCountAll specs ≤ depth →
        TypeSpec.pairCountAll specs ≤ h.pairs.size →
          " ".intercalate (first :: items.map (h.describeWith (h.describeList depth))) =
            first ++ r.renderSpecs specs
  | [], _, depth, first, hitems, _, _ => by
    obtain rfl := hitems
    rw [List.map_nil, String.intercalate_singleton]
    exact String.append_empty.symm
  | spec :: rest, _, depth, first, ⟨v, items, hitems, hv, hrest⟩, hdepth, hroom => by
    obtain rfl := hitems
    rw [TypeSpec.pairCountAll] at hdepth hroom
    -- the first member goes into the text before the others
    rw [List.map_cons, String.intercalate_cons_cons,
      describeWith_of_renders hr spec v depth hv (by omega) (by omega),
      intercalate_of_rendersAll hr rest items depth _ hrest (by omega) (by omega)]
    show _ = first ++ (" " ++ r.renderSpec spec ++ r.renderSpecs rest)
    simp only [String.append_assoc]

end

/-- **Descriptions of data.** Data for a specification is described as messages show the specification. -/
theorem describe_of_renders (hr : r.WellFormed) (hv : r.Renders h spec v)
    (hroom : spec.pairCount ≤ h.pairs.size) : h.describe v = r.renderSpec spec :=
  describeWith_of_renders hr spec v _ hv (by omega) hroom

/-- **Rendering** a specification is describing the data that it is written as. -/
theorem render_eq_describe_specData (hr : r.WellFormed) (spec : TypeSpec) (h : Heap) :
    r.renderSpec spec = (r.specData spec h).2.describe (r.specData spec h).1 := by
  have hsize := size_pairs_specData r spec h
  exact (describe_of_renders hr (renders_specData r spec h) (by omega)).symm

/-- **Wordings.** The condition for a wrong type says what the data in it would be described as. -/
theorem message_report (hr : r.WellFormed) (datum : Value) (spec : TypeSpec) (h : Heap) :
    (r.report (.wrongType datum spec) h).1.message =
      "Type assertion failed: expected " ++
        (r.report (.wrongType datum spec) h).2.describe (r.specData spec h).1 := by
  have hgrows : (r.specData spec h).2.Grows (r.report (.wrongType datum spec) h).2 :=
    Heap.grows_newCondition r _ _ _ _
  have hsize := size_pairs_specData r spec h
  have hle := hgrows.pairs.size_le
  have hdata := Renders.extend hgrows.pairs spec _ (renders_specData r spec h)
  rw [describe_of_renders hr hdata (by omega)]
  rfl

end LispObjects.Realm
