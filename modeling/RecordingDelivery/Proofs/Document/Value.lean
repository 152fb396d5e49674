import RecordingDelivery.Document.Value

/-!
Values of documents: equality can be decided, a table is known by what stands under its names, and numbers
in a range are in every wider one.
-/
namespace RecordingDelivery.Value

/-! ### Equality -/

mutual

def same : Value → Value → Bool
  | .null, .null => true
  | .bool a, .bool b => a == b
  | .int i, .int j => i == j
  | .float x, .float y => x == y
  | .text s, .text t => s == t
  | .list items, .list items' => itemsSame items items'
  | .table fields, .table fields' => fieldsSame fields fields'
  | _, _ => false

def itemsSame : List Value → List Value → Bool
  | [], [] => true
  | v :: rest, w :: rest' => v.same w && itemsSame rest rest'
  | _, _ => false

def fieldsSame : List (String × Value) → List (String × Value) → Bool
  | [], [] => true
  | (n, v) :: rest, (m, w) :: rest' => n == m && v.same w && fieldsSame rest rest'
  | _, _ => false

end

mutual

theorem same_iff : ∀ v w : Value, v.same w = true ↔ v = w
  | .null, w | .bool a, w | .int i, w | .float x, w | .text s, w => by cases w <;> simp [same]
  | .list items, w => by cases w <;> simp [same, itemsSame_iff items]
  | .table fields, w => by cases w <;> simp [same, fieldsSame_iff fields]

theorem itemsSame_iff : ∀ items items' : List Value, itemsSame items items' = true ↔ items = items'
  | [], items' => by cases items' <;> simp [itemsSame]
  | v :: rest, items' => by cases items' <;> simp [itemsSame, same_iff v, itemsSame_iff rest]

theorem fieldsSame_iff :
    ∀ fields fields' : List (String × Value), fieldsSame fields fields' = true ↔ fields = fields'
  | [], fields' => by cases fields' <;> simp [fieldsSame]
  | (n, v) :: rest, fields' => by
    cases fields' with
    | nil => simp [fieldsSame]
    | cons g rest' => simp [fieldsSame, same_iff v, fieldsSame_iff rest, Prod.ext_iff]

end

instance : DecidableEq Value := fun v w => decidable_of_iff _ (same_iff v w)

/-! ### Tables -/

theorem lookup_field (name n : String) (v : Value) (fields : List (String × Value)) :
    ((name, v) :: fields).lookup n = if n = name then some v else fields.lookup n := by
  by_cases h : n = name
  · simp [h]
  · simp [List.lookup_cons, h, beq_false_of_ne h]

theorem lookup_insertField (name n : String) (v : Value) (fields : List (String × Value)) :
    (insertField name v fields).lookup n = if n = name then some v else fields.lookup n := by
  induction fields with
  | nil => exact lookup_field name n v []
  | cons f rest ih =>
    obtain ⟨m, w⟩ := f
    unfold insertField
    split
    · rename_i heq
      rw [lookup_field, lookup_field, heq]
      split <;> rfl
    · rename_i hne
      split
      · exact lookup_field name n v _
      · rw [lookup_field, lookup_field, ih]
        split
        · rename_i hm
          rw [if_neg fun hn => hne (hn.symm.trans hm)]
        · rfl

/-- Of two fields with one name the later counts. -/
theorem lookup_tableOf (fields : List (String × Value)) (n : String) :
    (tableOf fields).field? n = fields.reverse.lookup n := by
  have hfold : ∀ acc : List (String × Value),
      (fields.foldl (fun acc f => insertField f.1 f.2 acc) acc).lookup n =
        (fields.reverse.lookup n).or (acc.lookup n) := by
    induction fields with
    | nil => simp
    | cons f rest ih =>
      intro acc
      rw [List.foldl_cons, ih, lookup_insertField, List.reverse_cons, List.lookup_append,
        Option.or_assoc, lookup_field]
      split <;> simp
  rw [tableOf, field?, hfold]
  simp

theorem mem_insertField {name : String} {v : Value} {fields : List (String × Value)}
    {f : String × Value} (h : f ∈ insertField name v fields) : f = (name, v) ∨ f ∈ fields := by
  induction fields with
  | nil => simpa [insertField] using h
  | cons g rest ih =>
    unfold insertField at h
    split at h
    · rcases List.mem_cons.mp h with rfl | hrest
      · exact .inl rfl
      · exact .inr (List.mem_cons_of_mem _ hrest)
    · split at h
      · exact List.mem_cons.mp h
      · rcases List.mem_cons.mp h with rfl | hrest
        · exact .inr List.mem_cons_self
        · exact (ih hrest).imp_right (List.mem_cons_of_mem _)

theorem exists_tableOf (fields : List (String × Value)) :
    ∃ table, tableOf fields = .table table ∧ table ⊆ fields ∧
      ∀ name, name ∈ table.map (·.1) ↔ name ∈ fields.map (·.1) := by
  have hsub (acc : List (String × Value)) :
      fields.foldl (fun acc f => insertField f.1 f.2 acc) acc ⊆ fields ++ acc := by
    induction fields generalizing acc with
    | nil => exact List.Subset.refl acc
    | cons f rest ih =>
      intro g hg
      rcases List.mem_append.mp (ih (insertField f.1 f.2 acc) hg) with hrest | hinsert
      · simp [hrest]
      · rcases mem_insertField hinsert with rfl | hacc
        · simp
        · simp [hacc]
  have hnames (l : List (String × Value)) (name : String) :
      name ∈ l.map (·.1) ↔ l.lookup name ≠ none := by
    rw [ne_eq, List.lookup_eq_none_iff]
    simp
  refine ⟨_, rfl, by simpa using hsub [], fun name => ?_⟩
  have hlookup := lookup_tableOf fields name
  rw [tableOf, field?] at hlookup
  rw [hnames, hlookup, ← hnames, List.map_reverse, List.mem_reverse]

theorem filter_insertField (fields : List (String × Value)) {p : String → Bool} {name : String}
    (hname : p name = false) (v : Value) :
    ((insertField name v fields).filter fun f => p f.1) = fields.filter fun f => p f.1 := by
  induction fields with
  | nil => simp [insertField, hname]
  | cons f rest ih =>
    unfold insertField
    split
    · rename_i heq
      simp [← heq, hname]
    · split
      · simp [hname]
      · rw [List.filter_cons, List.filter_cons, ih]

/-! ### Numbers -/

section Numbers

variable {low high low' high' : Int}

mutual

theorem integersWithin_mono (hlow : low' ≤ low) (hhigh : high ≤ high') :
    ∀ v : Value, v.integersWithin low high = true → v.integersWithin low' high' = true
  | .int i, h => by
    simp only [integersWithin, Bool.and_eq_true, decide_eq_true_eq] at h ⊢
    omega
  | .list items, h => itemsWithin_mono hlow hhigh items h
  | .table fields, h => fieldsWithin_mono hlow hhigh fields h
  | .null, _ | .bool _, _ | .float _, _ | .text _, _ => rfl

theorem itemsWithin_mono (hlow : low' ≤ low) (hhigh : high ≤ high') :
    ∀ items : List Value, itemsWithin low high items = true → itemsWithin low' high' items = true
  | [], _ => rfl
  | v :: rest, h => by
    simp only [itemsWithin, Bool.and_eq_true] at h ⊢
    exact ⟨integersWithin_mono hlow hhigh v h.1, itemsWithin_mono hlow hhigh rest h.2⟩

theorem fieldsWithin_mono (hlow : low' ≤ low) (hhigh : high ≤ high') :
    ∀ fields : List (String × Value),
      fieldsWithin low high fields = true → fieldsWithin low' high' fields = true
  | [], _ => rfl
  | (_, v) :: rest, h => by
    simp only [fieldsWithin, Bool.and_eq_true] at h ⊢
    exact ⟨integersWithin_mono hlow hhigh v h.1, fieldsWithin_mono hlow hhigh rest h.2⟩

end

theorem fieldsWithin_iff (fields : List (String × Value)) :
    fieldsWithin low high fields = true ↔ ∀ f ∈ fields, f.2.integersWithin low high = true := by
  induction fields with
  | nil => simp [fieldsWithin]
  | cons f rest ih => simp [fieldsWithin, ih]

end Numbers
end RecordingDelivery.Value
