import RecordingDelivery.Delivery.Destination
import RecordingDelivery.Document.Json.Reader
import RecordingDelivery.Proofs.Document.Decode
import RecordingDelivery.Proofs.Text.Utf8

/-!
Destinations as documents. The text of a destination is read back as that destination with its intervals
in whole seconds, and so are the list of its values and the table of its fields, in whatever order and
among fields of whatever other names. If only the first fields are given, the others are those of a new
destination without endpoint.
-/
namespace RecordingDelivery

namespace Duration

theorem seconds_lt {n : Nat} (h : n ≤ longest) : seconds n < Decode.limit64 := by
  have h : n ≤ 18446744073709551615 * 1000000000 + 999999999 := h
  have hlimit : n / 1000000000 < 18446744073709551616 := by omega
  exact hlimit

end Duration

namespace Destination

/-- The destination that a text gives, read through a table of its values: of a field that is given twice
the later counts. -/
def read? (body : String) : Option Destination :=
  (Json.parse? body).bind fun v => (decode .refused v).toOption

/-- The intervals without what they have beyond whole seconds. -/
def whole (d : Destination) : Destination :=
  { d with
    retryInterval := Duration.ofSeconds (Duration.seconds d.retryInterval)
    rejectionInterval := d.rejectionInterval.map fun i => Duration.ofSeconds (Duration.seconds i) }

/-- A destination with some fields, told by the names they have in documents, from another. -/
def patch (e : Destination) (names : List String) (d : Destination) : Destination where
  endpoint := if "endpoint_url" ∈ names then d.endpoint else e.endpoint
  deleteAfter := if "delete_on_success" ∈ names then d.deleteAfter else e.deleteAfter
  retryInterval := if "retry_interval_secs" ∈ names then d.retryInterval else e.retryInterval
  rejectionInterval :=
    if "rejection_retry_interval_secs" ∈ names then d.rejectionInterval else e.rejectionInterval
  recurse := if "recurse_dated_subdirectories" ∈ names then d.recurse else e.recurse
  suffix := if "path_suffix_filter" ∈ names then d.suffix else e.suffix
  baseDirectory := if "base_directory" ∈ names then d.baseDirectory else e.baseDirectory
  scanAtStart := if "scan_on_startup" ∈ names then d.scanAtStart else e.scanAtStart

variable {d e : Destination} {n : Nat} {dir body : String} {names names' : List String}
  {fields mixed : List (String × Value)}

@[simp] theorem patch_nil : e.patch [] d = e := by simp [patch]

theorem patch_patch : (e.patch names d).patch names' d = e.patch (names ++ names') d := by
  have hfield {β : Type} (name : String) (x y : β) :
      (if name ∈ names' then x else if name ∈ names then x else y) =
        if name ∈ names ++ names' then x else y := by
    by_cases h : name ∈ names' <;> simp [h]
  simp only [patch, hfield]

theorem schema_names : schema.names =
    ["endpoint_url", "delete_on_success", "retry_interval_secs", "rejection_retry_interval_secs",
      "recurse_dated_subdirectories", "path_suffix_filter", "base_directory", "scan_on_startup"] := rfl

theorem patch_all : e.patch schema.names d = d := by simp [patch, schema_names]

theorem patch_congr (h : ∀ name ∈ schema.names, name ∈ names ↔ name ∈ names') :
    e.patch names d = e.patch names' d := by
  simp only [schema_names, List.forall_mem_cons, List.not_mem_nil, false_implies, implies_true,
    and_true] at h
  simp only [patch, h]

theorem foldl_patch (e d : Destination) (fields : List (String × Value)) :
    fields.foldl (fun acc f => acc.patch [f.1] d) e = e.patch (fields.map (·.1)) d := by
  induction fields generalizing e with
  | nil => simp
  | cons f rest ih => rw [List.foldl_cons, ih, patch_patch, List.map_cons, List.singleton_append]

/-- What is written of a destination whose directory has a text. -/
def written (d : Destination) (dir : String) : List (String × Value) :=
  [("endpoint_url", .text d.endpoint),
   ("delete_on_success", .bool d.deleteAfter),
   ("retry_interval_secs", .int (Duration.seconds d.retryInterval)),
   ("rejection_retry_interval_secs",
     match d.rejectionInterval with
     | some i => .int (Duration.seconds i)
     | none => .null),
   ("recurse_dated_subdirectories", .bool d.recurse),
   ("path_suffix_filter", .text d.suffix),
   ("base_directory", .text dir),
   ("scan_on_startup", .bool d.scanAtStart)]

theorem toValue?_eq (hdir : d.baseDirectory = .ofText dir) :
    d.toValue? = some (.table (d.written dir)) := by
  have hdecode : Utf8.decode? d.baseDirectory.bytes = some dir := by
    rw [hdir]
    exact Utf8.decode?_encode dir
  rw [toValue?, hdecode]
  rfl

theorem written_whole (d : Destination) (dir : String) : d.whole.written dir = d.written dir := by
  cases hi : d.rejectionInterval <;> simp [written, whole, hi]

theorem map_fst_written (d : Destination) (dir : String) :
    (d.written dir).map (·.1) = schema.names := rfl

/-- The intervals of a destination fit into 64 bits of seconds and their nanoseconds. -/
structure Fits (d : Destination) : Prop where
  retry : d.retryInterval ≤ Duration.longest
  rejection : ∀ i ∈ d.rejectionInterval, i ≤ Duration.longest

theorem Fits.readSeconds (h : n ≤ Duration.longest) :
    readSeconds (.int (Duration.seconds n)) = .ok (Duration.ofSeconds (Duration.seconds n)) := by
  have hread : Decode.natural64 _ = _ := Decode.natural_ok (Duration.seconds_lt h)
  rw [Destination.readSeconds, hread]
  rfl

theorem Fits.readField (h : d.Fits) (hdir : d.baseDirectory = .ofText dir) {f : String × Value}
    (hf : f ∈ d.written dir) (acc : Destination) :
    schema.readField acc f = .ok (acc.patch [f.1] d.whole) := by
  have hretry := Fits.readSeconds h.retry
  have hrejection : Decode.optional Destination.readSeconds
      (match d.rejectionInterval with
        | some i => .int (Duration.seconds i)
        | none => .null) = .ok d.whole.rejectionInterval := by
    cases hi : d.rejectionInterval with
    | none => simp [Decode.optional, whole, hi]
    | some i =>
      have hread := Fits.readSeconds (h.rejection i hi)
      simp [Decode.optional, hread, whole, hi, Except.map]
  simp only [written, List.mem_cons, List.not_mem_nil, or_false] at hf
  rcases hf with rfl | rfl | rfl | rfl | rfl | rfl | rfl | rfl
  · rfl
  · rfl
  · show (do return { acc with retryInterval := ← Destination.readSeconds _ }) = Except.ok _
    rw [hretry]
    rfl
  · show (do return { acc with rejectionInterval := ← Decode.optional Destination.readSeconds _ }) =
      Except.ok _
    rw [hrejection]
    rfl
  · rfl
  · rfl
  · show Except.ok { acc with baseDirectory := .ofText dir } = _
    rw [← hdir]
    rfl
  · rfl

/-- Fields that were written, in any order, and fields of other names. -/
theorem Fits.ofFields (h : d.Fits) (hdir : d.baseDirectory = .ofText dir)
    (hfields : ∀ f ∈ fields, f ∈ d.written dir ∨ f.1 ∉ schema.names) (e : Destination) :
    schema.ofFields e fields = .ok (e.patch (fields.map (·.1)) d.whole) := by
  rw [← foldl_patch]
  refine Schema.ofFields_eq_foldl fun f hf acc => ?_
  rcases hfields f hf with hwritten | hother
  · exact h.readField hdir hwritten acc
  · have hsame : acc.patch [f.1] d.whole = acc.patch [] d.whole := patch_congr fun name hname => by
      simp only [List.mem_singleton, List.not_mem_nil, iff_false]
      rintro rfl
      exact hother hname
    rw [Schema.readField_of_not_mem hother, hsame, patch_nil]

theorem isPlain_written (h : d.Fits) {f : String × Value} (hf : f ∈ d.written dir) :
    f.2.isPlain = true ∧ f.2.tidied = f.2 := by
  have hretry := Value.isPlain_count (Duration.seconds_lt h.retry)
  have hrejection : (match d.rejectionInterval with
      | some i => Value.int (Duration.seconds i)
      | none => .null).isPlain = true := by
    cases hi : d.rejectionInterval with
    | none => rfl
    | some i => exact Value.isPlain_count (Duration.seconds_lt (h.rejection i hi))
  simp only [written, List.mem_cons, List.not_mem_nil, or_false] at hf
  rcases hf with rfl | rfl | rfl | rfl | rfl | rfl | rfl | rfl
  · exact ⟨rfl, rfl⟩
  · exact ⟨rfl, rfl⟩
  · exact ⟨hretry, rfl⟩
  · exact ⟨hrejection, by cases d.rejectionInterval <;> rfl⟩
  · exact ⟨rfl, rfl⟩
  · exact ⟨rfl, rfl⟩
  · exact ⟨rfl, rfl⟩
  · exact ⟨rfl, rfl⟩

theorem Fits.read?_of_parse (h : d.Fits) (hdir : d.baseDirectory = .ofText dir)
    (hmixed : ∀ f ∈ mixed, f ∈ d.written dir ∨ f.1 ∉ schema.names)
    (hbody : Json.parse? body = some (Value.tableOf mixed)) :
    read? body = some ((ofEndpoint "").patch (mixed.map (·.1)) d.whole) := by
  obtain ⟨table, htable, hsub, hnames⟩ := Value.exists_tableOf mixed
  have hfields := h.ofFields hdir (fun f hf => hmixed f (hsub hf)) {}
  have hsame : patch {} (table.map (·.1)) d.whole =
      (ofEndpoint "").patch (mixed.map (·.1)) d.whole := patch_congr fun name _ => hnames name
  rw [read?, hbody, htable, Option.bind_some]
  show (schema.ofFields {} table).toOption = _
  rw [hfields, hsame]
  rfl

theorem Fits.read?_table (h : d.Fits) (hdir : d.baseDirectory = .ofText dir)
    (hmixed : ∀ f ∈ mixed, f ∈ d.written dir ∨ f.1 ∉ schema.names)
    (hplain : ∀ f ∈ mixed, f.2.isPlain = true) :
    read? (Json.render (.table mixed)) =
      some ((ofEndpoint "").patch (mixed.map (·.1)) d.whole) := by
  have hparse : Json.parse? (Json.render (.table mixed)) =
      some (Value.tableOf (mixed.map fun f => (f.1, f.2.tidied))) := by
    have htable : (Value.table mixed).isPlain = true := (Value.fieldsPlain_iff mixed).mpr hplain
    rw [Json.parse?_render htable, Value.tidied, Value.fieldsTidied_eq]
  have htidied : ∀ f ∈ mixed.map fun f => (f.1, f.2.tidied), f ∈ d.written dir ∨ f.1 ∉ schema.names := by
    intro g hg
    obtain ⟨f, hf, rfl⟩ := List.mem_map.mp hg
    rcases hmixed f hf with hwritten | hother
    · rw [(isPlain_written h hwritten).2]
      exact .inl hwritten
    · exact .inr hother
  rw [h.read?_of_parse hdir htidied hparse, List.map_map]
  rfl

theorem Fits.read?_list (h : d.Fits) (hdir : d.baseDirectory = .ofText dir) (n : Nat) :
    read? (Json.render (.list (((d.written dir).map (·.2)).take n))) =
      some ((ofEndpoint "").patch (schema.names.take n) d.whole) := by
  have hvalues : ∀ v ∈ ((d.written dir).map (·.2)).take n, v.isPlain = true ∧ v.tidied = v := by
    intro v hv
    obtain ⟨f, hf, rfl⟩ := List.mem_map.mp (List.mem_of_mem_take hv)
    exact isPlain_written h hf
  obtain ⟨items, hitems⟩ : ∃ items, ((d.written dir).map (·.2)).take n = items := ⟨_, rfl⟩
  have hlength : items.length ≤ schema.length := by
    rw [← hitems, List.length_take, List.length_map]
    exact Nat.min_le_right _ _
  have hread : schema.ofItems {} items =
      .ok ((ofEndpoint "").patch (schema.names.take n) d.whole) := by
    rw [← hitems, Schema.ofItems_values (by decide) (map_fst_written d dir),
      h.ofFields hdir fun f hf => .inl (List.mem_of_mem_take hf), List.map_take, map_fst_written]
    rfl
  have hparse : Json.parse? (Json.render (.list items)) = some (.list items) := by
    rw [hitems] at hvalues
    have hplain : (Value.list items).isPlain = true :=
      (Value.itemsPlain_iff items).mpr fun v hv => (hvalues v hv).1
    have htidied : items.map Value.tidied = items :=
      (List.map_congr_left fun v hv => (hvalues v hv).2).trans (List.map_id items)
    rw [Json.parse?_render hplain, Value.tidied, Value.itemsTidied_eq, htidied]
  rw [hitems, read?, hparse, Option.bind_some]
  show (schema.ofList .refused {} items).toOption = _
  rw [Schema.ofList, hread]
  show (if items.length ≤ schema.length then Except.ok _ else _).toOption = _
  rw [if_pos hlength]
  rfl

/-- The text of a destination is read back as it is with its intervals in whole seconds, which have the
same text, and so is the list of its values. The first values alone, and equally a table that has just
their fields among others of unknown names, give these fields in a new destination without endpoint. -/
theorem text_keeps_destination (d : Destination) (dir : String) (hdir : d.baseDirectory = .ofText dir)
    (hretry : d.retryInterval ≤ Duration.longest)
    (hrejection : ∀ i ∈ d.rejectionInterval, i ≤ Duration.longest) :
    ∃ fields, d.toValue? = some (.table fields) ∧ d.whole.toValue? = some (.table fields) ∧
      read? (Json.render (.table fields)) = some d.whole ∧
      read? (Json.render (.list (fields.map (·.2)))) = some d.whole ∧
      ∀ n, ∃ part, part = (ofEndpoint "").patch ((fields.map (·.1)).take n) d.whole ∧
        read? (Json.render (.list ((fields.map (·.2)).take n))) = some part ∧
        ∀ mixed, (∀ f ∈ fields.take n, f ∈ mixed) →
          (∀ f ∈ mixed, f ∈ fields.take n ∨ f.1 ∉ fields.map (·.1)) →
          (Value.fieldsPlain mixed = true → read? (Json.render (.table mixed)) = some part) ∧
          ∀ body, Json.parse? body = some (Value.tableOf mixed) → read? body = some part := by
  have h : d.Fits := ⟨hretry, hrejection⟩
  have hwhole : d.whole.toValue? = some (.table (d.written dir)) := by
    rw [toValue?_eq (d := d.whole) hdir, written_whole]
  have hall (n : Nat) (hn : 8 ≤ n) : (ofEndpoint "").patch (schema.names.take n) d.whole = d.whole := by
    rw [List.take_of_length_le hn, patch_all]
  refine ⟨d.written dir, toValue?_eq hdir, hwhole, ?_, ?_, fun n => ⟨_, rfl, ?_, ?_⟩⟩
  · rw [h.read?_table hdir (fun f hf => .inl hf) fun f hf => (isPlain_written h hf).1,
      map_fst_written, patch_all]
  · have hlist := h.read?_list hdir 8
    rwa [hall 8 (Nat.le_refl 8), List.take_of_length_le (Nat.le_refl 8)] at hlist
  · exact h.read?_list hdir n
  · intro mixed hin hout
    have hmixed : ∀ f ∈ mixed, f ∈ d.written dir ∨ f.1 ∉ schema.names :=
      fun f hf => (hout f hf).imp_left List.mem_of_mem_take
    have hsame : (ofEndpoint "").patch (mixed.map (·.1)) d.whole =
        (ofEndpoint "").patch (((d.written dir).map (·.1)).take n) d.whole := by
      refine patch_congr fun name hname => ?_
      rw [← List.map_take, List.mem_map, List.mem_map]
      constructor
      · rintro ⟨f, hf, rfl⟩
        rcases hout f hf with hfirst | hother
        · exact ⟨f, hfirst, rfl⟩
        · exact absurd hname hother
      · rintro ⟨f, hf, rfl⟩
        exact ⟨f, hin f hf, rfl⟩
    rw [← hsame]
    exact ⟨fun hplain => h.read?_table hdir hmixed ((Value.fieldsPlain_iff mixed).mp hplain),
      fun body hbody => h.read?_of_parse hdir hmixed hbody⟩

/-- Characters that are escaped or longer than a byte, and intervals between whole seconds. -/
def unusual : Destination where
  endpoint := "\"\\\n\x01\x7fé"
  retryInterval := Duration.longest
  rejectionInterval := some 1500000000
  suffix := "😀"
  baseDirectory := .ofText "\tü"

theorem text_keeps_destination_unusual : unusual.baseDirectory = .ofText "\tü" ∧
    unusual.retryInterval ≤ Duration.longest ∧ (∀ i ∈ unusual.rejectionInterval, i ≤ Duration.longest) ∧
    ∃ fields, unusual.toValue? = some (.table fields) ∧
      read? (Json.render (.table fields)) =
        some { unusual with
          retryInterval := 18446744073709551615000000000, rejectionInterval := some 1000000000 } ∧
      read? (Json.render (.table [("x", .list [.null]), ("delete_on_success", .bool false),
        ("endpoint_url", .text unusual.endpoint)])) = some (ofEndpoint unusual.endpoint) := by
  have hrejection : ∀ i ∈ unusual.rejectionInterval, i ≤ Duration.longest := by
    intro i hi
    obtain rfl := Option.some.inj hi
    decide
  obtain ⟨fields, hfields, -, hread, -, hparts⟩ :=
    text_keeps_destination unusual "\tü" rfl (Nat.le_refl _) hrejection
  have hwritten : fields = unusual.written "\tü" := by
    simpa [toValue?_eq (d := unusual) rfl] using hfields.symm
  obtain ⟨part, hpart, -, htables⟩ := hparts 2
  obtain ⟨htable, -⟩ := htables [("x", .list [.null]), ("delete_on_success", .bool false),
    ("endpoint_url", .text unusual.endpoint)] (by simp [hwritten, written, unusual])
    (by simp [hwritten, written, unusual])
  refine ⟨rfl, Nat.le_refl _, hrejection, fields, hfields, hread, ?_⟩
  rw [htable rfl, hpart, hwritten]
  rfl

end Destination
end RecordingDelivery
