import RecordingDelivery.Document.Decode
import RecordingDelivery.Proofs.Document.Json
import RecordingDelivery.Proofs.Files.Calls

/-!
Counts, lists and structures read from documents. In a table a field that the structure does not name has
no effect, and of the others only the order counts; a list is read as the table that has its values under
the first names.
-/
namespace RecordingDelivery

namespace Decode

theorem required_tableOf (name : String) (names : List String) (fields : List (String × Value)) :
    required name names (Value.tableOf fields) = required name names (.table fields.reverse) := by
  have hlookup (n : String) := Value.lookup_tableOf fields n
  simp only [Value.tableOf, Value.field?] at hlookup
  simp only [Value.tableOf, required, hlookup]

theorem natural_ok {bound n : Nat} (h : n < bound) : natural bound (.int n) = .ok n := by
  simp [natural, h]

theorem list_ok {α : Type} {d : Decoder α} {f : α → Value} {l : List α}
    (h : ∀ a ∈ l, d (f a) = .ok a) : list d (.list (l.map f)) = .ok l := by
  induction l with
  | nil => rfl
  | cons a l ih =>
    have hfirst := h a (by simp)
    have hrest : List.mapM d (l.map f) = .ok l := ih fun b hb => h b (by simp [hb])
    simp only [list, List.map_cons, List.mapM_cons, hfirst, hrest]
    rfl

theorem natural_lt {bound n : Nat} {v : Value} (h : natural bound v = .ok n) : n < bound := by
  unfold natural at h
  split at h
  · split at h
    · rename_i hbound
      obtain rfl := Except.ok.inj h
      exact hbound.2
    · simp at h
  · simp [reject] at h

theorem exists_of_list_ok {α : Type} {d : Decoder α} {v : Value} {l : List α} (h : list d v = .ok l) :
    ∀ a ∈ l, ∃ item, d item = .ok a := by
  unfold list at h
  split at h
  case h_1 items =>
    induction items generalizing l with
    | nil =>
      obtain rfl := Except.ok.inj h
      simp
    | cons item rest ih =>
      rw [List.mapM_cons] at h
      obtain ⟨a, ha, h⟩ := bind_ok h
      obtain ⟨more, hmore, h⟩ := bind_ok h
      obtain rfl := Except.ok.inj h
      intro b hb
      rcases List.mem_cons.mp hb with rfl | hb
      · exact ⟨item, ha⟩
      · exact ih hmore b hb
  case h_2 => simp [reject] at h

end Decode

namespace Schema

variable {α : Type} {s : Schema α} {start : α} {fields : List (String × Value)}

def names (s : Schema α) : List String := s.map (·.name)

theorem readField_of_not_mem {f : String × Value} (h : f.1 ∉ s.names) (acc : α) :
    s.readField acc f = .ok acc := by
  have hnone : s.find? (·.name = f.1) = none := by
    rw [List.find?_eq_none]
    intro field hfield hname
    exact h (List.mem_map.mpr ⟨field, hfield, by simpa using hname⟩)
  simp [readField, hnone]

theorem readField_of_mem (hs : s.names.Nodup) {field : Field α} (h : field ∈ s) (acc : α) (v : Value) :
    s.readField acc (field.name, v) = field.read acc v := by
  have hfind : s.find? (·.name = field.name) = some field := by
    induction s with
    | nil => simp at h
    | cons first rest ih =>
      obtain ⟨hfirst, hrest⟩ := List.nodup_cons.mp hs
      rcases List.mem_cons.mp h with rfl | hmem
      · simp
      · have hne : first.name ≠ field.name := by
          intro heq
          exact hfirst (List.mem_map.mpr ⟨field, hmem, heq.symm⟩)
        simp [hne, ih hrest hmem]
  simp [readField, hfind]

theorem ofFields_filter (s : Schema α) (start : α) (fields : List (String × Value)) :
    s.ofFields start (fields.filter (·.1 ∈ s.names)) = s.ofFields start fields := by
  induction fields generalizing start with
  | nil => rfl
  | cons f rest ih =>
    by_cases h : f.1 ∈ s.names
    · have hfilter : (f :: rest).filter (·.1 ∈ s.names) = f :: rest.filter (·.1 ∈ s.names) := by
        simp [h]
      rw [hfilter, ofFields, ofFields, List.foldlM_cons, List.foldlM_cons]
      exact congrArg _ (funext ih)
    · have hfilter : (f :: rest).filter (·.1 ∈ s.names) = rest.filter (·.1 ∈ s.names) := by
        simp [h]
      rw [hfilter, ih, ofFields, ofFields, List.foldlM_cons, readField_of_not_mem h]
      rfl

/-- If each field can be read, all are read one after the other. -/
theorem ofFields_eq_foldl {g : α → String × Value → α}
    (h : ∀ f ∈ fields, ∀ acc, s.readField acc f = .ok (g acc f)) :
    s.ofFields start fields = .ok (fields.foldl g start) := by
  induction fields generalizing start with
  | nil => rfl
  | cons f rest ih =>
    rw [ofFields, List.foldlM_cons, h f (by simp)]
    exact ih fun f hf => h f (by simp [hf])

theorem ofItems_eq_ofFields (hs : s.names.Nodup) (start : α) (items : List Value) :
    s.ofItems start items = s.ofFields start (s.names.zip items) := by
  have hpart : ∀ part : Schema α, part ⊆ s → ∀ start items,
      part.ofItems start items = s.ofFields start (part.names.zip items) := by
    intro part
    induction part with
    | nil => intros; rfl
    | cons field more ih =>
      intro hsub start items
      cases items with
      | nil => rfl
      | cons v rest =>
        have hfirst := readField_of_mem hs (hsub List.mem_cons_self) start v
        have hmore := ih fun f hf => hsub (List.mem_cons_of_mem _ hf)
        show (field.read start v).bind (ofItems more · rest) =
          (s.readField start (field.name, v)).bind (s.ofFields · ((names more).zip rest))
        rw [hfirst]
        exact congrArg _ (funext fun acc => hmore acc rest)
  exact hpart s (List.Subset.refl s) start items

theorem ofItems_values (hs : s.names.Nodup) (hfields : fields.map (·.1) = s.names) (start : α) (n : Nat) :
    s.ofItems start ((fields.map (·.2)).take n) = s.ofFields start (fields.take n) := by
  have hzip : (fields.map (·.1)).zip ((fields.map (·.2)).take n) = fields.take n := by
    clear hfields
    induction fields generalizing n with
    | nil => simp
    | cons f rest ih =>
      cases n with
      | zero => simp
      | succ n => simp [ih]
  rw [ofItems_eq_ofFields hs, ← hfields, hzip]

end Schema
end RecordingDelivery
