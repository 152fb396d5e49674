import RecordingDelivery.Proofs.Document.Decode
import RecordingDelivery.Registry.Reader

/-!
What a registry does not depend on. Two documents give one registry if their structures agree on the
fields that are named, whatever else their tables hold; and of an output that is no file only the kind
has to be the same, though its other fields have names that mean something in a file output.
-/
namespace RecordingDelivery

/-! ### Values that are read alike -/

namespace Decode

variable {α β : Type} {d : Decoder α} {R : Value → Value → Prop}

/-- What is read of a value is read of each value to which it is related. -/
def Ignores (d : Decoder α) (R : Value → Value → Prop) : Prop :=
  ∀ ⦃v w a⦄, R v w → d v = .ok a → d w = .ok a

theorem ignores_eq (d : Decoder α) : Ignores d Eq := by
  rintro v _ a rfl h
  exact h

theorem Ignores.map (h : Ignores d R) (g : α → β) : Ignores (fun v => do return g (← d v)) R := by
  intro v w b hvw hv
  obtain ⟨a, ha, hb⟩ := bind_ok hv
  show (d w).bind (fun a => .ok (g a)) = .ok b
  rw [h hvw ha]
  exact hb

inductive Itemwise (R : Value → Value → Prop) : Value → Value → Prop
  | same (v : Value) : Itemwise R v v
  | items {items items' : List Value} : List.Forall₂ R items items' →
    Itemwise R (.list items) (.list items')

theorem Ignores.list (h : Ignores d R) : Ignores (Decode.list d) (Itemwise R) := by
  rintro _ _ l (v | hitems) hl
  · exact hl
  · induction hitems generalizing l with
    | nil => exact hl
    | cons hitem _ ih =>
      simp only [Decode.list, List.mapM_cons] at hl
      obtain ⟨a, ha, hl⟩ := bind_ok hl
      obtain ⟨more, hmore, hl⟩ := bind_ok hl
      have hrest : List.mapM d _ = .ok more := ih hmore
      simp only [Decode.list, List.mapM_cons, h hitem ha, hrest]
      exact hl

end Decode

namespace Schema

variable {α : Type} {s : Schema α} {R : String → Value → Value → Prop} {start a : α}
  {fields fields' : List (String × Value)}

/-- Tables that agree, up to a relation for each name, on the fields that a structure names. Tables of
documents have their fields in the order of the names, so that these stand in one order in both. -/
def Agree (s : Schema α) (R : String → Value → Value → Prop) (fields fields' : List (String × Value)) :
    Prop :=
  List.Forall₂ (fun f g => f.1 = g.1 ∧ R f.1 f.2 g.2) (fields.filter (·.1 ∈ s.names))
    (fields'.filter (·.1 ∈ s.names))

inductive Varies (s : Schema α) (R : String → Value → Value → Prop) : Value → Value → Prop
  | same (v : Value) : Varies s R v v
  | table {fields fields' : List (String × Value)} : s.Agree R fields fields' →
    Varies s R (.table fields) (.table fields')

theorem agree_insertField (hR : ∀ name v, R name v v) (fields : List (String × Value)) {name : String}
    (hname : name ∉ s.names) (v : Value) : s.Agree R fields (Value.insertField name v fields) := by
  have hnamed := Value.filter_insertField (p := (· ∈ s.names)) fields (by simpa using hname) v
  rw [Agree, hnamed]
  exact List.forall₂_same.mpr fun f _ => ⟨rfl, hR f.1 f.2⟩

theorem readField_ignores (hread : ∀ field ∈ s, ∀ acc, Decode.Ignores (field.read acc) (R field.name))
    (name : String) (acc : α) : Decode.Ignores (fun v => s.readField acc (name, v)) (R name) := by
  intro v w a hvw h
  cases hfield : s.find? (·.name = name) with
  | none =>
    simp only [readField, hfield] at h ⊢
    exact h
  | some field =>
    simp only [readField, hfield] at h ⊢
    obtain rfl : field.name = name := by simpa using List.find?_some hfield
    exact hread field (List.mem_of_find?_eq_some hfield) acc hvw h

theorem Agree.ofFields (hread : ∀ field ∈ s, ∀ acc, Decode.Ignores (field.read acc) (R field.name))
    (hagree : s.Agree R fields fields') (h : s.ofFields start fields = .ok a) :
    s.ofFields start fields' = .ok a := by
  -- field by field along the named ones, with the same value read so far on both sides
  have hnamed : ∀ {named named' : List (String × Value)} {start : α},
      List.Forall₂ (fun f g => f.1 = g.1 ∧ R f.1 f.2 g.2) named named' →
      s.ofFields start named = .ok a → s.ofFields start named' = .ok a := by
    intro named named' start hrelated h
    induction hrelated generalizing start with
    | nil => exact h
    | @cons f g _ _ hfirst _ ih =>
      obtain ⟨name, v⟩ := f
      obtain ⟨_, w⟩ := g
      obtain ⟨rfl, hvw⟩ := hfirst
      rw [Schema.ofFields, List.foldlM_cons] at h ⊢
      obtain ⟨acc, hacc, h⟩ := bind_ok h
      have hsame : s.readField start (name, w) = .ok acc := readField_ignores hread name start hvw hacc
      rw [hsame]
      exact ih h
  rw [← ofFields_filter] at h ⊢
  exact hnamed hagree h

theorem ignores_varies (hread : ∀ field ∈ s, ∀ acc, Decode.Ignores (field.read acc) (R field.name))
    (name : String) (surplus : Surplus) (start : α) :
    Decode.Ignores (s.decode name surplus start) (s.Varies R) := by
  rintro _ _ a (v | hagree) h
  · exact h
  · exact hagree.ofFields hread h

end Schema

/-! ### Outputs -/

namespace Output

variable {fields fields' : List (String × Value)} {o : Output}

/-- The fields of an output by which it is a file. -/
def names : List String := kindField :: Destination.schema.names

/-- Outputs that differ in fields without a meaning: those of unknown names, and all but the kind if the
kind is no file. Whole numbers that are new have 64 bits with a sign. -/
inductive Varies : Value → Value → Prop
  | same (v : Value) : Varies v v
  | widened {fields fields' : List (String × Value)} :
    fields.filter (·.1 ∈ names) = fields'.filter (·.1 ∈ names) →
    (∀ f ∈ fields', f ∈ fields ∨ Registry.isNarrow f.2 = true) →
    Varies (.table fields) (.table fields')
  | foreign {kind : String} {fields fields' : List (String × Value)} : kind ≠ "file" →
    fields.lookup kindField = some (.text kind) → fields'.lookup kindField = some (.text kind) →
    (∀ f ∈ fields', f ∈ fields ∨ Registry.isNarrow f.2 = true) →
    Varies (.table fields) (.table fields')

theorem varies_insertField (fields : List (String × Value)) {name : String} {v : Value}
    (hname : name ∉ names) (hv : Registry.isNarrow v = true) :
    Varies (.table fields) (.table (Value.insertField name v fields)) := by
  have hnamed := Value.filter_insertField (p := (· ∈ names)) fields (by simpa using hname) v
  refine .widened hnamed.symm fun f hf => ?_
  rcases Value.mem_insertField hf with rfl | hold
  · exact .inr hv
  · exact .inl hold

def others (fields : List (String × Value)) : List (String × Value) :=
  fields.filter (·.1 != kindField)

theorem decode_table_ok : decode (.table fields) = .ok o ↔
    ∃ kind file, fields.lookup kindField = some kind ∧ isFile kind = .ok file ∧
      isStorable (.table (others fields)) = true ∧
      if file then ∃ d, Destination.schema.ofFields {} (others fields) = .ok d ∧ o = .file d
      else o = .other := by
  cases hkind : fields.lookup kindField with
  | none => simp [decode, hkind]
  | some kind =>
    cases hfile : isFile kind with
    | error e => simp [decode, hkind, hfile, bind, Except.bind]
    | ok file =>
      have hdecode : decode (.table fields) =
          if ! isStorable (.table (others fields)) then .error unstorable
          else if file then (Destination.schema.ofFields {} (others fields)).map .file
          else .ok .other := by
        simp only [decode, hkind, hfile]
        rfl
      rw [hdecode]
      cases isStorable (.table (others fields)) with
      | false => simp
      | true =>
        cases file with
        | false => simp [hfile, eq_comm]
        | true =>
          cases Destination.schema.ofFields {} (others fields) with
          | error e => simp [hfile, Except.map]
          | ok d => simp [hfile, Except.map, eq_comm]

theorem isStorable_others (hnew : ∀ f ∈ fields', f ∈ fields ∨ Registry.isNarrow f.2 = true)
    (h : isStorable (.table (others fields)) = true) : isStorable (.table (others fields')) = true := by
  have hstored := (Value.fieldsWithin_iff (others fields)).mp h
  refine (Value.fieldsWithin_iff (others fields')).mpr fun f hf => ?_
  obtain ⟨hmem, hname⟩ := List.mem_filter.mp hf
  rcases hnew f hmem with hold | hnarrow
  · exact hstored f (List.mem_filter.mpr ⟨hold, hname⟩)
  · exact Value.integersWithin_mono (Int.le_refl _) (by decide) f.2 hnarrow

theorem lookup_names (fields : List (String × Value)) :
    (fields.filter (·.1 ∈ names)).lookup kindField = fields.lookup kindField :=
  lookup_filter_of fields (· ∈ names) (by simp [names])

theorem ofFields_names (fields : List (String × Value)) :
    Destination.schema.ofFields {} (others (fields.filter (·.1 ∈ names))) =
      Destination.schema.ofFields {} (others fields) := by
  rw [← Schema.ofFields_filter, ← Schema.ofFields_filter _ _ (others fields)]
  congr 1
  simp only [others, List.filter_filter]
  refine List.filter_congr fun f _ => ?_
  simp only [names, List.mem_cons]
  grind

/-- An output is read as before with other fields that have no meaning for it. -/
theorem ignores_varies : Decode.Ignores decode Varies := by
  intro v w o hvw h
  cases hvw with
  | same => exact h
  | @widened fields fields' hnamed hnew =>
    obtain ⟨kind, file, hkind, hfile, hstored, ho⟩ := decode_table_ok.mp h
    have hkind' : fields'.lookup kindField = some kind := by
      rw [← lookup_names, ← hnamed, lookup_names, hkind]
    have hread : Destination.schema.ofFields {} (others fields') =
        Destination.schema.ofFields {} (others fields) := by
      rw [← ofFields_names, ← hnamed, ofFields_names]
    rw [← hread] at ho
    exact decode_table_ok.mpr ⟨kind, file, hkind', hfile, isStorable_others hnew hstored, ho⟩
  | @foreign kind fields fields' hkind hfields hfields' hnew =>
    obtain ⟨_, file, hlookup, hfile, hstored, ho⟩ := decode_table_ok.mp h
    rw [hfields] at hlookup
    obtain rfl := Option.some.inj hlookup
    -- the kind names no file, so nothing but the size of the numbers is asked of the other fields
    obtain rfl : file = false := by simpa [isFile, hkind] using hfile.symm
    exact decode_table_ok.mpr ⟨_, false, hfields', hfile, isStorable_others hnew hstored, ho⟩

end Output

/-! ### The registry -/

def Channel.Varies : Value → Value → Prop :=
  Channel.schema.Varies fun
    | "outputs" => Decode.Itemwise Output.Varies
    | _ => Eq

theorem Channel.ignores_varies : Decode.Ignores Channel.decode Channel.Varies := by
  refine Schema.ignores_varies (fun field hfield c => ?_) _ _ _
  simp only [Channel.schema, List.mem_cons, List.not_mem_nil, or_false] at hfield
  rcases hfield with rfl | rfl
  · exact (Decode.ignores_eq Decode.text).map fun label => { c with label }
  · exact Output.ignores_varies.list.map fun outputs => { c with outputs }

def Device.Varies : Value → Value → Prop :=
  Device.schema.Varies fun
    | "channels" => Decode.Itemwise Channel.Varies
    | _ => Eq

theorem Device.ignores_varies : Decode.Ignores Device.decode Device.Varies := by
  refine Schema.ignores_varies (fun field hfield d => ?_) _ _ _
  simp only [Device.schema, List.mem_cons, List.not_mem_nil, or_false] at hfield
  rcases hfield with rfl | rfl
  · exact (Decode.ignores_eq Decode.text).map fun name => { d with name }
  · exact Channel.ignores_varies.list.map fun channels => { d with channels }

def Mixer.Varies : Value → Value → Prop :=
  Mixer.schema.Varies fun
    | "channel" => Channel.Varies
    | _ => Eq

theorem Mixer.ignores_varies : Decode.Ignores Mixer.decode Mixer.Varies := by
  refine Schema.ignores_varies (fun field hfield m => ?_) _ _ _
  simp only [Mixer.schema, List.mem_cons, List.not_mem_nil, or_false] at hfield
  rcases hfield with rfl | rfl | rfl
  · exact (Decode.ignores_eq Decode.text).map fun name => { m with name }
  · exact (Decode.ignores_eq Decode.boolean).map fun enabled => { m with enabled }
  · exact Channel.ignores_varies.map fun channel => { m with channel }

namespace Registry

/-- A registry with any other fields and with devices and mixers that vary. -/
def Varies : Value → Value → Prop :=
  Registry.schema.Varies fun
    | "devices" => Decode.Itemwise Device.Varies
    | "mixers" => Decode.Itemwise Mixer.Varies
    | _ => Eq

theorem ignores_varies : Decode.Ignores decode Varies := by
  refine Schema.ignores_varies (fun field hfield r => ?_) _ _ _
  simp only [Registry.schema, List.mem_cons, List.not_mem_nil, or_false] at hfield
  rcases hfield with rfl | rfl
  · exact Device.ignores_varies.list.map fun devices => { r with devices }
  · exact Mixer.ignores_varies.list.map fun mixers => { r with mixers }

/-- With any other fields in its tables and any other outputs that are no files, a text gives the registry
that it gave. -/
theorem ofText_ignores (text text' : String) (v v' : Value) (r : Registry)
    (hv : Toml.parse? text = some v) (hv' : Toml.parse? text' = some v') (hvaries : Varies v v')
    (h : ofText text = .ok r) : ofText text' = .ok r := by
  have hdecode : decode v = .ok r := by
    simp only [ofText, hv] at h
    split at h
    · rename_i hr
      rw [hr]
      exact congrArg Except.ok (Except.ok.inj h)
    · simp at h
  simp only [ofText, hv', ignores_varies hvaries hdecode]

/-- A file output and one of another kind, and a mixer. -/
def plainText : String :=
  "devices = [\x7bchannels = [\x7boutputs = [\x7btype = \"file\", endpoint_url = \"u\"\x7d, " ++
    "\x7btype = \"icecast\", port = 1\x7d]\x7d]\x7d]\nmixers = [\x7bchannel = \x7blabel = \"m\"\x7d\x7d]\n"

def plain : Value :=
  .table
    [("devices", .list [.table
      [("channels", .list [.table
        [("outputs", .list
          [.table [("endpoint_url", .text "u"), ("type", .text "file")],
           .table [("port", .int 1), ("type", .text "icecast")]])]])]]),
     ("mixers", .list [.table [("channel", .table [("label", .text "m")])]])]

/-- The same with one more field in every table, but in the output that is no file with one that could not
be read in a file output. -/
def widerText : String :=
  "devices = [\x7ba = [1], channels = [\x7boutputs = [\x7btype = \"file\", endpoint_url = \"u\", b = -1\x7d, " ++
    "\x7bretry_interval_secs = \"x\", type = \"icecast\"\x7d], c = true\x7d]\x7d]\n" ++
    "mixers = [\x7bchannel = \x7blabel = \"m\", d = false\x7d, e = \x7b\x7d\x7d]\nrate = 2\n"

def wider : Value :=
  .table
    [("devices", .list [.table
      [("a", .list [.int 1]),
       ("channels", .list [.table
        [("c", .bool true),
         ("outputs", .list
          [.table [("b", .int (-1)), ("endpoint_url", .text "u"), ("type", .text "file")],
           .table [("retry_interval_secs", .text "x"), ("type", .text "icecast")]])]])]]),
     ("mixers", .list [.table
      [("channel", .table [("d", .bool false), ("label", .text "m")]), ("e", .table [])]]),
     ("rate", .int 2)]

theorem ofText_ignores_wider : Toml.parse? plainText = some plain ∧
    Toml.parse? widerText = some wider ∧ Varies plain wider ∧
    ∃ r, r.destinations = [.ofEndpoint "u"] ∧ ofText plainText = .ok r ∧ ofText widerText = .ok r := by
  have hplain : Toml.parse? plainText = some plain := by decide +kernel
  have hwider : Toml.parse? widerText = some wider := by decide +kernel
  have hchannel : Channel.Varies (.table [("label", .text "m")])
      (.table [("d", .bool false), ("label", .text "m")]) := by
    have hname : "d" ∉ Channel.schema.names := by decide
    refine .table (Schema.agree_insertField (fun name v => ?_) _ hname _)
    split
    · exact .same v
    · rfl
  have hfile : Output.Varies (.table [("endpoint_url", .text "u"), ("type", .text "file")])
      (.table [("b", .int (-1)), ("endpoint_url", .text "u"), ("type", .text "file")]) := by
    have hname : "b" ∉ Output.names := by decide
    exact Output.varies_insertField _ hname (by decide)
  have hvaries : Varies plain wider := by
    refine .table (.cons ⟨rfl, .items (.cons ?device .nil)⟩
      (.cons ⟨rfl, .items (.cons ?mixer .nil)⟩ .nil))
    case device =>
      have hkind : "icecast" ≠ "file" := by decide
      refine .table (.cons ⟨rfl, .items (.cons (.table (.cons ⟨rfl, .items ?outputs⟩ .nil)) .nil)⟩ .nil)
      exact .cons hfile (.cons (.foreign hkind rfl rfl (by decide)) .nil)
    case mixer => exact .table (.cons ⟨rfl, hchannel⟩ .nil)
  have hread : ofText plainText = .ok
      { devices := [{ channels := [{ outputs := [.file (.ofEndpoint "u"), .other] }] }]
        mixers := [{ channel := { label := "m" } }] } := by
    rw [ofText, hplain]
    rfl
  exact ⟨hplain, hwider, hvaries, _, rfl, hread,
    ofText_ignores plainText widerText plain wider _ hplain hwider hvaries hread⟩

end Registry
end RecordingDelivery
