import ProofEngine.Crypto.ProofBinding
import ProofEngine.Interop.CodecAgrees
import ProofEngine.Interop.Pengine

/-! # What the second verifier reads

Its checks, read backwards as statements about the engine's value of the same bytes.  A map read from
canonical bytes has every key once, so `get` finds what the engine's field lookup finds. -/

namespace ProofEngine.Interop

open StableSort Text CborValue

/-! ## Values that were accepted -/

/-- A value the second codec reads and writes. -/
structure Readable (value : CborValue) : Prop where
  canonical : Canonical unbounded value
  scalarKeys : value.Everywhere ScalarKeys
  depth : value.nesting ≤ maxDepth

theorem scalar_of_enc {value : CborValue} {out : Bytes} (done : enc (toPython value) = .ok out) : Scalar value := by
  cases value with
  | array items => cases done
  | map pairs => cases done
  | _ => trivial

theorem of_encItems {items : List CborValue} {out : Bytes} (done : encItems (toPythonItems items) = .ok out) :
    ∀ item ∈ items, ∃ bytes, encAny (toPython item) = .ok bytes := by
  induction items generalizing out with
  | nil => simp
  | cons item items inductionHypothesis =>
    simp only [toPythonItems, encItems, bind_eq_ok] at done
    obtain ⟨bytes, here, _, rest, _⟩ := done
    exact List.forall_mem_cons.mpr ⟨⟨bytes, here⟩, inductionHypothesis rest⟩

theorem of_encEntries {pairs : List (CborValue × CborValue)} {entries : List (Bytes × Py Bytes)}
    (done : encEntries (toPythonPairs pairs) = .ok entries) :
    ∀ pair ∈ pairs, ∃ key, enc (toPython pair.1) = .ok key ∧ (key, encAny (toPython pair.2)) ∈ entries := by
  induction pairs generalizing entries with
  | nil => simp
  | cons pair pairs inductionHypothesis =>
    simp only [toPythonPairs, encEntries, bind_eq_ok] at done
    obtain ⟨key, here, others, rest, done⟩ := done
    cases done
    refine List.forall_mem_cons.mpr ⟨⟨key, here, List.mem_cons_self⟩, fun other member => ?_⟩
    obtain ⟨otherKey, otherHere, otherMember⟩ := inductionHypothesis rest other member
    exact ⟨otherKey, otherHere, List.mem_cons_of_mem _ otherMember⟩

theorem of_joinEntries {entries : List (Bytes × Py Bytes)} {out : Bytes} (done : joinEntries entries = .ok out) :
    ∀ entry ∈ entries, ∃ bytes, entry.2 = .ok bytes := by
  induction entries generalizing out with
  | nil => simp
  | cons entry entries inductionHypothesis =>
    simp only [joinEntries, bind_eq_ok] at done
    obtain ⟨bytes, here, _, rest, _⟩ := done
    exact List.forall_mem_cons.mpr ⟨⟨bytes, here⟩, inductionHypothesis rest⟩

/-- Containers as keys cannot be encoded, at any depth. -/
theorem scalarKeys_of_encAny {value : CborValue} {out : Bytes} (done : encAny (toPython value) = .ok out) :
    value.Everywhere ScalarKeys := by
  induction value using CborValue.inductOn generalizing out with
  | array items inductionHypothesis =>
    simp only [toPython, encAny, bind_eq_ok] at done
    obtain ⟨_, _, _, body, _⟩ := done
    refine everywhere_array.mpr ⟨trivial, fun item member => ?_⟩
    obtain ⟨bytes, here⟩ := of_encItems body item member
    exact inductionHypothesis item member here
  | map pairs inductionHypothesis =>
    simp only [toPython, encAny, bind_eq_ok] at done
    obtain ⟨entries, encoded, _, _, _, _, _, body, _⟩ := done
    have keys := of_encEntries encoded
    refine everywhere_map.mpr ⟨fun pair member => ?_, fun pair member => ?_⟩
    · obtain ⟨_, here, _⟩ := keys pair member
      exact scalar_of_enc here
    · obtain ⟨key, here, inEntries⟩ := keys pair member
      obtain ⟨bytes, valueDone⟩ := of_joinEntries body _ (mem_sortOn.mpr inEntries)
      exact ⟨(inductionHypothesis pair member).1 (encAny_of_enc here), (inductionHypothesis pair member).2 valueDone⟩
  | text s => simp [ScalarKeys]
  | _ => simp [ScalarKeys]

theorem checkCanonical_readable {raw : Bytes} {v : Value} (accepted : checkCanonical raw = .ok v) :
    ∃ value, toPython value = v ∧ raw = encodeCanonical value ∧ Readable value := by
  obtain ⟨decoded, again⟩ := checkCanonical_eq_ok.mp accepted
  obtain ⟨value, rfl, canonical, nesting, rfl⟩ := dec_rebuilds _ _ _ _ _ decoded again
  exact ⟨value, rfl, rfl, canonical, scalarKeys_of_encAny again, Nat.le_of_lt_succ nesting⟩

namespace Readable

theorem encAny {value : CborValue} (readable : Readable value) :
    Interop.encAny (toPython value) = .ok (encodeCanonical value) :=
  Canonical.encAny_toPython readable.canonical readable.scalarKeys

theorem item {items : List CborValue} (readable : Readable (.array items)) {item : CborValue}
    (member : item ∈ items) : Readable item where
  canonical := (everywhere_array.mp readable.canonical).2 item member
  scalarKeys := (everywhere_array.mp readable.scalarKeys).2 item member
  depth := (Nat.le_succ _).trans (nestingItems_le.mp readable.depth item member)

variable {entries : Entries} (readable : Readable (.map entries))
include readable

theorem value {entry : CborValue × CborValue} (member : entry ∈ entries) : Readable entry.2 where
  canonical := ((everywhere_map.mp readable.canonical).2 entry member).2
  scalarKeys := ((everywhere_map.mp readable.scalarKeys).2 entry member).2
  depth := (Nat.le_succ _).trans (nestingPairs_le.mp readable.depth entry member).2

theorem field {key : String} {value : CborValue} (found : findField entries key = some value) : Readable value :=
  readable.value (mem_of_findField found)

theorem ascending : Ascending entries := Canonical.ascending readable.canonical

end Readable

/-! ## Fields -/

@[simp] theorem isStr_toPython (key : String) (value : CborValue) : isStr key (toPython value) = isKey key value := by
  cases value <;> rfl

theorem toPythonPairs_eq (entries : Entries) :
    toPythonPairs entries = entries.map fun entry => (toPython entry.1, toPython entry.2) := by
  induction entries with
  | nil => rfl
  | cons entry entries inductionHypothesis => rw [toPythonPairs, inductionHypothesis, List.map_cons]

theorem toPythonItems_eq (items : List CborValue) : toPythonItems items = items.map toPython := by
  induction items with
  | nil => rfl
  | cons item items inductionHypothesis => rw [toPythonItems, inductionHypothesis, List.map_cons]

theorem toPython_eq_map {value : CborValue} {pairs : Pairs} :
    toPython value = .map pairs ↔ ∃ entries, value = .map entries ∧ pairs = toPythonPairs entries := by
  cases value <;> simp [toPython, eq_comm]

theorem toPython_eq_str {value : CborValue} {s : String} : toPython value = .str s ↔ value = .text s := by
  cases value <;> simp [toPython]

theorem toPython_eq_bytes {value : CborValue} {b : Bytes} : toPython value = .bytes b ↔ value = .bytes b := by
  cases value <;> simp [toPython]

theorem req_eq_ok {entries : Entries} {key : String} {v : Value} :
    req (toPythonPairs entries) key = .ok v ↔ ∃ value, findField entries key = some value ∧ toPython value = v := by
  simp only [req, toPythonPairs_eq, List.find?_map, Function.comp_def, isStr_toPython, findField]
  cases entries.find? fun entry => isKey key entry.1 <;> simp [fail]

/-- Among distinct keys the last entry with a key is the first one. -/
theorem get_toPythonPairs {entries : Entries} (unique : UniqueKeys entries) (key : String) :
    get (toPythonPairs entries) key = ((findField entries key).map toPython).getD .none := by
  simp only [get, toPythonPairs_eq, ← List.map_reverse, List.find?_map, Function.comp_def, isStr_toPython]
  cases last : entries.reverse.find? fun entry => isKey key entry.1 with
  | none =>
    have absent : findField entries key = none := by
      rw [findField_eq_none]
      intro entry member same
      have other := List.find?_eq_none.mp last entry (List.mem_reverse.mpr member)
      exact other (isKey_iff.mpr same)
    rw [absent]
    rfl
  | some entry =>
    have isIt : isKey key entry.1 = true := by simpa using List.find?_some last
    have member := List.mem_reverse.mp (List.mem_of_find?_eq_some last)
    have found : findField entries key = some entry.2 :=
      findField_of_mem unique (by rw [← isKey_iff.mp isIt]; exact member)
    rw [found]
    rfl

/-- A field that may be absent, read by `get`, is what it is when present. -/
theorem get_cases {entries : Entries} (unique : UniqueKeys entries) (key : String) :
    (findField entries key = none ∧ get (toPythonPairs entries) key = .none) ∨
      ∃ value, findField entries key = some value ∧ get (toPythonPairs entries) key = toPython value := by
  rw [get_toPythonPairs unique]
  cases findField entries key with
  | none => exact .inl ⟨rfl, rfl⟩
  | some value => exact .inr ⟨value, rfl, rfl⟩

/-! ## Shared checks -/

@[simp] theorem ensure_eq_ok {condition : Prop} [Decidable condition] {message : String} {nothing : Unit} :
    ensure condition message = .ok nothing ↔ condition := by
  by_cases holds : condition <;> simp [ensure, holds, fail]

@[simp] theorem fail_ne_ok {α : Type} {message : String} {result : α} : fail message ≠ .ok result := by
  simp [fail]

theorem asBytes_eq_ok {message : String} {v : Value} {b : Bytes} : asBytes message v = .ok b ↔ v = .bytes b := by
  cases v <;> simp [asBytes]

theorem asStr_eq_ok {message : String} {v : Value} {s : String} : asStr message v = .ok s ↔ v = .str s := by
  cases v <;> simp [asStr]

theorem asInt_eq_ok {message : String} {v : Value} {n : Int} : asInt message v = .ok n ↔ v = .int n := by
  cases v <;> simp [asInt]

theorem mapOf_eq_ok {value : CborValue} (readable : Readable value) {pairs : Pairs} :
    mapOf (encodeCanonical value) = .ok pairs ↔ ∃ entries, value = .map entries ∧ pairs = toPythonPairs entries := by
  have back := dec_encodeValue readable.canonical readable.scalarKeys readable.depth []
  rw [List.append_nil] at back
  simp only [mapOf, encodeCanonical, back, ok_bind, ensure, if_true]
  cases value <;> simp [toPython, fail, eq_comm]

section
variable {entries : Entries} {key what lead : String} {runtime : Runtime} {nothing : Unit}

theorem checkText_get (unique : UniqueKeys entries) {maxLen : Nat}
    (done : checkText (get (toPythonPairs entries) key) what maxLen = .ok nothing) :
    ∃ s, findField entries key = some (.text s) ∧ s.isEmpty = false ∧ len s ≤ maxLen := by
  obtain ⟨_, absent⟩ | ⟨value, found, present⟩ := get_cases unique key
  · rw [absent] at done
    cases done
  · rw [present] at done
    cases value with
    | text s => exact ⟨s, found, by simpa [toPython, checkText] using done⟩
    | _ => cases done

theorem checkOptRef_get (unique : UniqueKeys entries)
    (done : checkOptRef runtime (get (toPythonPairs entries) key) what lead = .ok nothing) {value : CborValue}
    (found : findField entries key = some value) :
    ∃ optional, value = textOrNil optional ∧ BoundedRef lead optional := by
  rw [get_toPythonPairs unique, found] at done
  cases value with
  | text s =>
    simp only [Option.map_some, Option.getD_some, toPython, checkOptRef, checkText, bind_eq_ok, ensure_eq_ok] at done
    obtain ⟨_, bounded, starts⟩ := done
    refine ⟨some s, rfl, ?_⟩
    intro t member
    cases member
    exact ⟨bounded, starts⟩
  | null => exact ⟨none, rfl, by simp [BoundedRef]⟩
  | _ => cases done

theorem checkKnown_eq_ok {allowed : List String} :
    checkKnown runtime allowed what (toPythonPairs entries) = .ok nothing ↔
      ∀ entry ∈ entries, ∃ name ∈ allowed, entry.1 = .text name := by
  induction entries with
  | nil => simp [toPythonPairs, checkKnown]
  | cons entry entries inductionHypothesis =>
    simp only [toPythonPairs, checkKnown, bind_eq_ok, ensure_eq_ok, exists_const, inductionHypothesis,
      List.forall_mem_cons, List.any_eq_true, isStr_toPython, isKey_iff]

theorem closed_eq_ok {allowed : List String} {value : CborValue} {pairs : Pairs} :
    closed runtime allowed what (toPython value) = .ok pairs ↔ ∃ entries, value = .map entries ∧
      pairs = toPythonPairs entries ∧ ∀ entry ∈ entries, ∃ name ∈ allowed, entry.1 = .text name := by
  cases value with
  | map entries =>
    simp only [toPython, closed, bind_eq_ok, checkKnown_eq_ok, exists_const, Except.ok.injEq, CborValue.map.injEq,
      exists_eq_left', eq_comm (a := pairs)]
    exact and_comm
  | _ => simp [toPython, closed]

end

end ProofEngine.Interop
