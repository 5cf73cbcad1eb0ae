import StackBound.Json.Reader
import StackBound.Proofs.Json.Value
import StackBound.Proofs.Text.Base64

/-! What readers make of a single occurrence: a list is read item by item, bytes come back from their
letters, and an object that has only known members is read off the members of each name. -/
namespace StackBound

theorem utf8_injective {s t : String} (same : utf8 s = utf8 t) : s = t := by
  have glyphs := congrArg Bytes.glyphs same
  have chars : s.toList.map Glyph.char = t.toList.map Glyph.char := by
    rw [← Bytes.glyphs_encode, ← Bytes.glyphs_encode]
    exact glyphs
  exact String.toList_inj.mp ((List.map_inj_right fun _ _ => Glyph.char.inj).mp chars)

@[simp] theorem utf8_inj {s t : String} : utf8 s = utf8 t ↔ s = t :=
  ⟨utf8_injective, congrArg utf8⟩

theorem Bytes.meant?_of_mem {names : List Bytes} {key : Bytes} (known : key ∈ names) :
    meant? names key = some key := by
  have found : names.find? (· = key) = some key := by
    cases result : names.find? (· = key) with
    | none => simpa using List.find?_eq_none.mp result key known
    | some name => simpa using List.find?_some result
  rw [meant?, found]
  rfl

namespace Json

section Members

def values (key : Bytes) (members : List Member) : List Json :=
  (members.filter (·.1 = key)).map (·.2)

@[simp] theorem values_nil (key : Bytes) : values key [] = [] := rfl

@[simp] theorem values_cons (key : Bytes) (first : Member) (more : List Member) :
    values key (first :: more) =
      if first.1 = key then first.2 :: values key more else values key more := by
  by_cases same : first.1 = key <;> simp [values, same]

@[simp] theorem values_append (key : Bytes) (first second : List Member) :
    values key (first ++ second) = values key first ++ values key second := by
  simp [values]

@[simp] theorem values_optional (key name : String) (absent : Bool) (value : Json) :
    values (utf8 key) (optional absent name value) =
      if name = key then (optional absent name value).map (·.2) else [] := by
  cases absent <;> simp [optional, member]

end Members

namespace Reader

@[simp] theorem text_string (s : Bytes) : text [.string s] = some s := rfl

@[simp] theorem bool_bool (b : Bool) : bool [.bool b] = some b := rfl

@[simp] theorem int_int (n : Int64) : int [.int n] = some n := by
  simp only [int, leaf, List.foldlM_cons, List.foldlM_nil, Json.int, Bytes.toInt64?_ofInt64]
  rfl

@[simp] theorem text_optional (key : String) (s : Bytes) :
    text ((optional s.isEmpty key (.string s)).map (·.2)) = some s := by
  cases s with
  | nil => rfl
  | cons b more => exact text_string (b :: more)

@[simp] theorem int_optional (key : String) (n : Int64) :
    int ((optional (n = 0) key (.int n)).map (·.2)) = some n := by
  by_cases zero : n = 0
  · subst zero
    rfl
  · simp [optional, member, zero]

section Lists

variable {ι α : Type}

theorem stack_nil (items : List ι) : stack [] items = items.map ([·]) := by
  suffices folded : ∀ done : List (List ι),
      items.foldl (fun (state : List (List ι) × List (List ι)) item =>
        (state.1.tail, (item :: state.1.headD []) :: state.2)) ([], done) =
      ([], (items.map ([·])).reverse ++ done) by
    rw [stack, folded []]
    simp
  induction items with
  | nil => simp
  | cons item more ih =>
    intro done
    exact (ih ([item] :: done)).trans (by simp)

theorem settle_laid {items : List ι} {item : List ι → Option α} {l : List α}
    (each : items.map (fun x => item [x]) = l.map some) : settle [.laid items] item = some (some l) := by
  have read : ∀ done : List α, (items.map ([·])).foldlM (fun done column =>
      (item column.reverse).map (· :: done)) done = some (l.reverse ++ done) := by
    induction items generalizing l with
    | nil => cases l with
      | nil => simp
      | cons => simp at each
    | cons x more ih =>
      cases l with
      | nil => simp at each
      | cons y rest =>
        intro done
        simp only [List.map_cons, List.cons.injEq] at each
        simp [each.1, ih each.2]
  have whole : (columns [Layer.laid items]).take items.length = items.map ([·]) := by
    simp [columns, stack_nil]
  simp [settle, length?, whole, read]

variable {item : Reader α} {json : α → Json} {l : List α}

theorem list?_of_map {items : List Json} (each : items.map (fun value => item [value]) = l.map some) :
    list? item [.array items] = some (some l) := by
  have laid : settle [.laid items] item = some (some l) := settle_laid each
  have legible : items.all (fun value => (item [value]).isSome) = true := by
    rw [List.all_eq_true]
    intro value member
    have read : item [value] ∈ l.map some := each ▸ List.mem_map_of_mem (f := fun v => item [v]) member
    obtain ⟨x, -, found⟩ := List.mem_map.mp read
    rw [← found]
    rfl
  cases items with
  | nil =>
    obtain rfl := List.map_eq_nil_iff.mp each.symm
    rfl
  | cons value more =>
    have layers : [Json.array (value :: more)].mapM layer? = some [.laid (value :: more)] := rfl
    rw [list?, layers, Option.bind_eq_bind, Option.bind_some, guard, if_pos]
    · exact laid
    · exact (Bool.and_true _).trans legible

theorem list_of_map {items : List Json} (each : items.map (fun value => item [value]) = l.map some) :
    list item [.array items] = some l := by
  rw [list, list?_of_map each]
  rfl

theorem list?_array (each : ∀ x ∈ l, item [json x] = some x) :
    list? item [.array (l.map json)] = some (some l) := by
  refine list?_of_map ?_
  rw [List.map_map]
  exact List.map_congr_left each

theorem list_array (each : ∀ x ∈ l, item [json x] = some x) :
    list item [.array (l.map json)] = some l := by
  rw [list, list?_array each]
  rfl

theorem list_optional (key : String) (each : ∀ x ∈ l, item [json x] = some x) :
    list item ((optional l.isEmpty key (.array (l.map json))).map (·.2)) = some l := by
  cases l with
  | nil => rfl
  | cons x more => exact list_array each

theorem list?_orNull {list : Option (List α)} (each : ∀ l ∈ list, ∀ x ∈ l, item [json x] = some x) :
    list? item [orNull list json] = some list := by
  cases list with
  | none => rfl
  | some l => exact list?_array (each l rfl)

@[simp] theorem list_null : list item [.null] = some [] := rfl

@[simp] theorem list_nil : list item [] = some [] := rfl

end Lists

theorem blob_string (bytes : Bytes) : blob [.string (Base64.encode bytes)] = some bytes := by
  have laid : settle [.laid (bytes.map some)]
      (fun column => some ((column.filterMap id).getLastD 0)) = some (some bytes) := by
    apply settle_laid
    simp
  simp only [blob, List.mapM_cons, List.mapM_nil, blobLayer?, Base64.decode_encode, Option.map_some,
    Option.pure_def, Option.bind_eq_bind, Option.bind_some, laid, Option.getD_some]

section Records

variable {β γ : Type}

def setAll (known : List (Bytes × Setter β)) (members : List Member) (record : β) : Option β :=
  known.foldlM (fun record entry => entry.2 record (values entry.1 members)) record

@[simp] theorem setAll_nil (members : List Member) :
    (setAll [] members : β → Option β) = some := rfl

@[simp] theorem setAll_cons (entry : Bytes × Setter β) (more : List (Bytes × Setter β))
    (members : List Member) (record : β) :
    setAll (entry :: more) members record =
      (entry.2 record (values entry.1 members)).bind (setAll more members) := rfl

@[simp] theorem setAll_append (known more : List (Bytes × Setter β)) (members : List Member)
    (record : β) :
    setAll (known ++ more) members record =
      (setAll known members record).bind (setAll more members) :=
  List.foldlM_append

/-- Parts of a part are set inside it. -/
theorem setAll_within (get : β → γ) (put : β → γ → β) (get_put : ∀ b c, get (put b c) = c)
    (put_put : ∀ b c, put (put b c) = put b) (put_get : ∀ b, put b (get b) = b)
    (known : List (Bytes × Setter γ)) (members : List Member) (record : β) :
    setAll (known.map fun entry => (entry.1, fun b occurrences =>
        (entry.2 (get b) occurrences).map (put b))) members record =
      (setAll known members (get record)).map (put record) := by
  induction known generalizing record with
  | nil => simp [put_get]
  | cons entry more ih =>
    rw [List.map_cons, setAll_cons, setAll_cons]
    cases part : entry.2 (get record) (values entry.1 members) with
    | none => simp [part]
    | some value => simp [part, ih, get_put, put_put]

/-- An object whose members are all known is read off its members of each name. -/
theorem object_of_known {blank : β} {known : List (Bytes × Setter β)} {members : List Member}
    (each : members.all (fun member => known.any (·.1 = member.1)) = true) :
    object blank known [.object members] = setAll known members blank := by
  have meant : (members.map fun member => (Bytes.meant? (known.map (·.1)) member.1, member.2)) =
      members.map fun member => (some member.1, member.2) := by
    refine List.map_congr_left fun member inside => ?_
    obtain ⟨entry, listed, same⟩ := List.any_eq_true.mp (List.all_eq_true.mp each member inside)
    rw [Bytes.meant?_of_mem (List.mem_map.mpr ⟨entry, listed, of_decide_eq_true same⟩)]
  have own (key : Bytes) :
      ((members.map fun member => (some member.1, member.2)).filter (·.1 = some key)).map (·.2) =
        values key members := by
    simp [values, List.filter_map, Function.comp_def]
  simp only [object, List.mapM_cons, List.mapM_nil, members?, Option.pure_def, Option.bind_eq_bind,
    Option.bind_some, List.flatten_cons, List.flatten_nil, List.append_nil, meant, own, setAll]

end Records

end Reader
end Json
end StackBound
