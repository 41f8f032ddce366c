import Tfws.Crates.SerdeJsonText
import Tfws.Json.Canonical

/-! The canonical texts of the values of `serde_json`, as `serde_jcs` writes
them. They are read back as the same values: the order of fields is lost on a
map. -/
namespace SerdeJson.Value

/-- The text of RFC 8785, in UTF-8, of a value without floats. -/
def toJcs (value : Value) : Option Bytes :=
  value.json.map fun json => Utf8.encode (String.ofList json.canonical)

/-- A value is read from its JSON value whatever order the fields are in. -/
theorem ofJson_reordered {value : Value} (hOrdered : value.ordered = true) {result : Json.Value}
    (h : value.json = some result) : ofJson result.reordered = some value := by
  induction value generalizing result with
  | null | bool _ | string _ =>
      obtain rfl := Option.some.inj h
      rw [Json.Value.reordered] <;> first | rfl | simp
  | number _ =>
      have hBack := ofJson_json hOrdered h
      obtain ⟨integer, -, rfl⟩ := Option.map_eq_some_iff.mp h
      rw [Json.Value.reordered] <;> first | exact hBack | simp
  | array items ih =>
      obtain ⟨values, rfl, hValues⟩ := json_array.mp h
      have hBack : values.mapM (ofJson ∘ Json.Value.reordered) = some items :=
        Traversal.forall₂_back hValues fun item hMem value hValue =>
          ih item hMem (ordered_array.mp hOrdered item hMem) hValue
      rw [Json.Value.reordered, Json.Value.reorderedItems_eq_map, ofJson, ofJsonItems_eq_mapM,
        List.mapM_map, hBack, Option.map_some]
  | object entries ih =>
      obtain ⟨fields, rfl, hFields⟩ := json_object.mp h
      obtain ⟨hSorted, hMembers⟩ := ordered_object.mp hOrdered
      have hBack : fields.mapM (field ofJson ∘ Json.Value.onField Json.Value.reordered) =
          some entries := by
        apply Traversal.forall₂_back hFields
        intro entry hMem result hField
        obtain ⟨hName, hValue⟩ := field_eq_some.mp hField
        exact field_eq_some.mpr ⟨hName.symm, ih entry hMem (hMembers entry hMem) hValue⟩
      rw [← List.mapM_map] at hBack
      obtain ⟨shuffled, hShuffled, hPerm⟩ :=
        Traversal.mapM_perm hBack (List.perm_insertionSort Json.unitsLe _)
      rw [Json.Value.reordered, Json.Value.reorderedFields_eq_map, ofJson, ofJsonFields_eq_mapM,
        Json.inUnitOrder, hShuffled, Option.map_some, hSorted.insertAll_nil_eq hPerm]

/-- A value is read back from its canonical text, so that two values with the same
canonical text are the same. -/
theorem ofText_toJcs {value : Value} (hOrdered : value.ordered = true) {text : Bytes}
    (h : value.toJcs = some text) : ofText text = some value := by
  obtain ⟨result, hResult, rfl⟩ := Option.map_eq_some_iff.mp h
  have hParse := Json.Value.parse_write (json_plain hResult).reordered (List.forall_mem_nil _)
    (List.forall_mem_nil _)
  rw [List.nil_append, List.append_nil] at hParse
  rw [Json.Value.canonical_eq_write]
  simp only [ofText, Utf8.decode_encode, Option.bind_eq_bind, Option.bind_some,
    String.toList_ofList, hParse, ofJson_reordered hOrdered hResult]

end SerdeJson.Value
