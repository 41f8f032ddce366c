import Tfws.Json.Canonical
import Tfws.Python.JsonValue

/-! `canonicalize` beside the scheme of RFC 8785. Python orders names by code
points and the scheme by UTF-16 code units. -/
namespace Tfws.Python

namespace Object

/-- The canonical text of the JSON value that an object is, by RFC 8785 and not by the
source. -/
def jcs (object : Object) : Option Bytes :=
  object.json.map fun value => Utf8.encode (String.ofList value.canonical)

/-- No dictionary, at any level, has two names that cross: that are ordered one way by
code points and the other way by UTF-16. -/
inductive Uncrossed : Object → Prop where
  | none : Uncrossed .none
  | bool {value : Bool} : Uncrossed (.bool value)
  | int {value : Int} : Uncrossed (.int value)
  | float {bits : UInt64} : Uncrossed (.float bits)
  | str {text : String} : Uncrossed (.str text)
  | bytes {octets : Bytes} : Uncrossed (.bytes octets)
  | list {items : List Object} (members : ∀ item ∈ items, Uncrossed item) : Uncrossed (.list items)
  | dict {entries : List (Key × Object)}
      (names : ∀ first second, (get (.str first) entries).isSome →
        (get (.str second) entries).isSome → Utf16.crossed first.toList second.toList = false)
      (members : ∀ entry ∈ entries, Uncrossed entry.2) : Uncrossed (.dict entries)
  | tag {number : Nat} {value : Object} (content : Uncrossed value) : Uncrossed (.tag number value)

section Fields

variable {entries : List (Key × Object)} {fields : List (String × Json.Value)}

theorem json_dict_field (hDistinct : DistinctKeys entries)
    (h : (Object.dict entries).json = some (.object fields)) {name : String} {item : Object}
    (hItem : get (.str name) entries = some item) :
    ∃ member, item.json = some member ∧ (name, member) ∈ fields := by
  obtain ⟨_, hSame, -, hLookup⟩ := json_dict_lookup hDistinct h
  obtain rfl := Json.Value.object.inj hSame
  obtain ⟨member, hMember⟩ := json_dict_member h hItem
  have hFound := hLookup name
  rw [hItem, Option.bind_some, hMember] at hFound
  exact ⟨member, hMember, SortedMap.mem_of_lookup hFound⟩

theorem json_dict_entry (hDistinct : DistinctKeys entries)
    (h : (Object.dict entries).json = some (.object fields)) {field : String × Json.Value}
    (hIn : field ∈ fields) :
    ∃ item, get (.str field.1) entries = some item ∧ item.json = some field.2 := by
  obtain ⟨_, hSame, hSorted, hLookup⟩ := json_dict_lookup hDistinct h
  obtain rfl := Json.Value.object.inj hSame
  have hFound := hSorted.lookup_of_mem hIn
  rw [hLookup] at hFound
  exact Option.bind_eq_some_iff.mp hFound

end Fields

/-- The names of a dictionary are those of its JSON object, and so are the members. -/
theorem uncrossed_json_dict {entries : List (Key × Object)} {value : Json.Value}
    (hDistinct : DistinctKeys entries) (h : (Object.dict entries).json = some value)
    (hEntries : ∀ entry ∈ entries, ∀ {member : Json.Value}, entry.2.json = some member →
      (member.Uncrossed ↔ entry.2.Uncrossed)) :
    value.Uncrossed ↔ (Object.dict entries).Uncrossed := by
  obtain ⟨fields, rfl, -, -⟩ := json_dict_lookup hDistinct h
  constructor
  · intro hUncrossed
    cases hUncrossed with
    | object hNames hAll =>
    apply Uncrossed.dict
    · intro first second hFirst hSecond
      obtain ⟨item, hItem⟩ := Option.isSome_iff_exists.mp hFirst
      obtain ⟨other, hOther⟩ := Option.isSome_iff_exists.mp hSecond
      obtain ⟨_, -, hIn⟩ := json_dict_field hDistinct h hItem
      obtain ⟨_, -, hOtherIn⟩ := json_dict_field hDistinct h hOther
      exact hNames _ hIn _ hOtherIn
    · intro entry hIn
      obtain ⟨name, item⟩ := entry
      obtain ⟨_, -, hFields⟩ := json_dict.mp h
      obtain ⟨field, -, hRelated⟩ := Traversal.exists_right hFields hIn
      obtain rfl : name = .str field.1 := (jsonEntry_eq_some.mp hRelated).1
      obtain ⟨member, hMember, hMemberIn⟩ :=
        json_dict_field hDistinct h (hDistinct.get_of_mem hIn)
      exact (hEntries _ hIn hMember).mp (hAll _ hMemberIn)
  · intro hUncrossed
    cases hUncrossed with
    | dict hNames hAll =>
    apply Json.Value.Uncrossed.object
    · intro first hFirst second hSecond
      obtain ⟨_, hItem, -⟩ := json_dict_entry hDistinct h hFirst
      obtain ⟨_, hOther, -⟩ := json_dict_entry hDistinct h hSecond
      exact hNames _ _ (Option.isSome_of_eq_some hItem) (Option.isSome_of_eq_some hOther)
    · intro field hIn
      obtain ⟨item, hItem, hMember⟩ := json_dict_entry hDistinct h hIn
      have hItemIn := mem_of_get hItem
      exact (hEntries _ hItemIn hMember).mpr (hAll _ hItemIn)

/-- No names are crossed in the value exactly when none are in the object that it is
written from, whose dictionaries may hold their entries in any order. -/
theorem uncrossed_json {object : Object} {value : Json.Value} (hProper : object.Proper)
    (h : object.json = some value) : value.Uncrossed ↔ object.Uncrossed := by
  induction object generalizing value with
  | none | bool _ | int _ | str _ =>
      obtain rfl := Option.some.inj h
      constructor
      · intro _
        constructor
      · intro _
        constructor
  | float _ | bytes _ | tag _ _ => cases h
  | list items ih =>
      obtain ⟨values, rfl, hValues⟩ := json_list.mp h
      cases hProper with
      | list hMembers =>
      constructor
      · intro hUncrossed
        cases hUncrossed with
        | array hAll =>
        apply Uncrossed.list
        intro item hItem
        obtain ⟨member, hMember, hJson⟩ := Traversal.exists_right hValues hItem
        exact (ih item hItem (hMembers item hItem) hJson).mp (hAll member hMember)
      · intro hUncrossed
        cases hUncrossed with
        | list hAll =>
        apply Json.Value.Uncrossed.array
        intro member hMember
        obtain ⟨item, hItem, hJson⟩ := Traversal.exists_left hValues hMember
        exact (ih item hItem (hMembers item hItem) hJson).mpr (hAll item hItem)
  | dict entries ih =>
      cases hProper with
      | dict hDistinct hMembers =>
      exact uncrossed_json_dict hDistinct h fun entry hIn _ hMember =>
        ih entry hIn (hMembers entry hIn) hMember

end Object

/-- What `_validate` accepts has a canonical text by RFC 8785, and `canonicalize`
returns it exactly for those objects in which no names cross. Names of ASCII
characters alone never do. -/
theorem canonicalize_eq_jcs_iff (accepted : Accepted) :
    ∃ text, accepted.object.jcs = some text ∧
      (canonicalize accepted.object = .ok text ↔ accepted.object.Uncrossed) := by
  obtain ⟨value, hValue, hOctets⟩ := canonicalize_of_validate accepted.valid
  obtain ⟨same, hSame, hProfile⟩ := Object.json_of_validate accepted.valid
  obtain rfl := Option.some.inj (hValue.symm.trans hSame)
  refine ⟨_, congrArg (Option.map _) hValue, ?_⟩
  rw [hOctets, ← Object.uncrossed_json accepted.proper hValue,
    ← Json.Value.canonical_eq_write_iff (Object.json_normal hValue) hProfile.plain,
    Except.ok.injEq, jsonText]
  constructor
  · intro h
    exact (String.ofList_injective (Utf8.encode_injective h)).symm
  · intro h
    exact congrArg (fun text => Utf8.encode (String.ofList text)) h.symm

/-- A dictionary with a ligature and an emoji for names, which cross. -/
def crossedSample : Accepted where
  object := .dict [(.str "ﬁ", .int 1), (.str "😀", .int 2)]
  proper := by
    apply Object.Proper.dict
    · unfold Object.DistinctKeys
      decide
    · simp only [List.forall_mem_cons]
      exact ⟨.int, .int, List.forall_mem_nil _⟩
  valid := by decide

/-- Python writes the ligature first, where RFC 8785 has the emoji before it. -/
theorem canonicalize_ne_jcs :
    ¬∃ text, crossedSample.object.jcs = some text ∧
      canonicalize crossedSample.object = .ok text := by
  have hJson : crossedSample.object.json =
      some (.object [("ﬁ", .int 1), ("😀", .int 2)]) := by
    rfl
  intro h
  obtain ⟨text, hText, hOctets⟩ := h
  obtain ⟨value, hValue, hSame⟩ := canonicalize_of_validate crossedSample.valid
  obtain rfl := Option.some.inj (hJson.symm.trans hValue)
  rw [Object.jcs, hJson, Option.map_some, Option.some.injEq] at hText
  rw [hSame, Except.ok.injEq, ← hText, jsonText] at hOctets
  have hWritten := String.ofList_injective (Utf8.encode_injective hOctets)
  revert hWritten
  decide

end Tfws.Python
