import PaperFolding.Paper.Archive
import PaperFolding.Proofs.Json.Coordinate

/-!
An archive is read back as it was written, as far as its coordinates are.
-/

namespace PaperFolding

/-! ## Whole numbers -/

namespace Json

theorem natural?_natural {n : Nat} (small : n ≤ Number.digitLimit) :
    (Json.natural n).natural? = some n := by
  simp [natural, natural?, Number.natural?, Number.ofNat, Number.isWhole, Text.digitsValue_toDigits,
    small]

theorem integer?_integer {n : Int} (low : -2 ^ 63 ≤ n) (high : n < 2 ^ 63) :
    (Json.integer n).integer? = some n := by
  unfold integer integer? Number.integer? Number.ofInt
  by_cases below : n < 0
  · have size : 0 < n.natAbs ∧ n.natAbs ≤ 0x8000000000000000 := by omega
    simp [below, Number.isWhole, Text.digitsValue_toDigits, size, abs_of_neg below]
  · have size : n.natAbs ≤ Number.digitLimit := by
      show n.natAbs ≤ 2 ^ 64 - 1
      omega
    simp [below, Number.natural?, Number.isWhole, Text.digitsValue_toDigits, size,
      abs_of_nonneg (not_lt.1 below)]

theorem readable_integer {n : Int} (low : -2 ^ 31 ≤ n) (high : n < 2 ^ 31) :
    (Json.integer n).readable = true := by
  have size : n.natAbs ≤ 2 ^ 31 := by omega
  have value := Text.digitsValue_toDigits n.natAbs
  refine Number.real?_isSome ?_ (Number.le_reach_small ((Number.amount_lt _ rfl).le.trans ?_))
  · rw [Number.ofInt, value]
    exact size.trans (by decide)
  · rw [Number.ofInt, value]
    have size : (n.natAbs : ℚ) ≤ (2 ^ 31 : ℕ) := by exact_mod_cast size
    norm_num at size ⊢
    linarith

theorem word64?_natural (n : UInt64) : (Json.natural n.toNat).word64? = some n := by
  have small : n.toNat ≤ Number.digitLimit := Nat.le_pred_of_lt n.toNat_lt
  rw [word64?, natural?_natural small, Option.map_some, UInt64.ofNat_toNat]

theorem word32?_natural (n : UInt32) : (Json.natural n.toNat).word32? = some n := by
  have small : n.toNat < UInt32.size := n.toNat_lt
  rw [word32?, natural?_natural (by unfold Number.digitLimit UInt64.size; unfold UInt32.size at small; omega)]
  simp [small]

end Json

/-! ## What is read where something was written -/

def Planar.reread? (point : Planar) : Option Planar := do
  return ⟨← point.x.reread?, ← point.y.reread?⟩

def Spatial.reread? (point : Spatial) : Option Spatial := do
  return ⟨← point.x.reread?, ← point.y.reread?, ← point.z.reread?⟩

def Record.reread? (record : Record) : Option Record := do
  return ⟨record.operation, ⟨← record.plane.point.reread?, ← record.plane.normal.reread?⟩,
    record.region⟩

def Ledger.reread? (ledger : Ledger) : Option Ledger := do
  return ⟨← ledger.outline.mapM Planar.reread?, ← ledger.journal.mapM Record.reread?, []⟩

namespace Archive

theorem planar?_planarJson (point : Planar) : planar? (planarJson point) = point.reread? := by
  simp only [planarJson, planar?, Planar.reread?, Coordinate.reread?_eq]

theorem spatial?_spatialJson (point : Spatial) : spatial? (spatialJson point) = point.reread? := by
  simp only [spatialJson, spatial?, Spatial.reread?, Coordinate.reread?_eq]

theorem degrees?_integer (degrees : Int32) : degrees? (.integer degrees.toInt) = some degrees := by
  have low := degrees.le_toInt
  have high := degrees.toInt_lt
  rw [degrees?, Json.integer?_integer (by omega) (by omega)]
  rw [Option.filter_some_pos (by simp only [degrees.minValue_le_toInt, degrees.toInt_le,
    decide_true, Bool.and_self]), Option.map_some, Int32.ofInt_toInt]

theorem region?_optional (region : Option UInt64) :
    Json.optional? Json.word64? (.optional (fun region => .natural region.toNat) region) =
      some region := by
  cases region with
  | none => rfl
  | some region =>
      show (Json.word64? (.natural region.toNat)).map some = _
      rw [Json.word64?_natural]
      rfl

theorem color?_optional (color : Option Color) :
    Json.optional? color? (.optional (fun color => .natural color.packed.toNat) color) =
      some color := by
  cases color with
  | none => rfl
  | some color =>
      show (color? (.natural color.packed.toNat)).map some = _
      rw [color?, Json.word32?_natural]
      rfl

/-- The fields by which a record tells its operation. -/
def ownFields (operation : Operation) : List (Option String × Json) :=
  (operationFields operation).map fun (name, value) => (some name, value)

/-- The fields that every record has. -/
def sharedFields (record : Record) : List (Option String × Json) :=
  [(some "point", spatialJson record.plane.point), (some "normal", spatialJson record.plane.normal),
    (some "region", .optional (fun region => .natural region.toNat) record.region)]

theorem recordJson_eq (record : Record) :
    recordJson record = .object (ownFields record.operation ++ sharedFields record) := by
  rw [recordJson, Json.record, List.map_append]
  rfl

theorem operation?_ownFields (operation : Operation) :
    operation? (ownFields operation) = some operation := by
  cases operation with
  | rotate degrees =>
      simp [operation?, ownFields, operationFields, Json.field?, operationName?, Json.string,
        operationNames, degrees?_integer]
  | _ => rfl

theorem readable_ownFields (operation : Operation) :
    Json.readableFields (ownFields operation) = true := by
  cases operation with
  | rotate degrees =>
      have readable := Json.readable_integer degrees.le_toInt degrees.toInt_lt
      simp [ownFields, operationFields, Json.readableFields, Json.readable, Json.string, readable]
  | _ => rfl

theorem record?_recordJson (record : Record) : record? (recordJson record) = record.reread? := by
  have point : Json.field? "point" (ownFields record.operation ++ sharedFields record) =
      some (some (spatialJson record.plane.point)) := by
    cases record.operation <;> rfl
  have normal : Json.field? "normal" (ownFields record.operation ++ sharedFields record) =
      some (some (spatialJson record.plane.normal)) := by
    cases record.operation <;> rfl
  have region : Json.field? "region" (ownFields record.operation ++ sharedFields record) =
      some (some (.optional (fun region => .natural region.toNat) record.region)) := by
    cases record.operation <;> rfl
  have others : (ownFields record.operation ++ sharedFields record).filter
      (fun field => !isOwnField field) = ownFields record.operation := by
    cases record.operation <;> rfl
  have shallow : Json.depthOfFields (ownFields record.operation) = 0 := by
    cases record.operation <;> rfl
  rw [recordJson_eq, record?]
  simp only [point, normal, region, others, shallow, readable_ownFields, operation?_ownFields,
    region?_optional, spatial?_spatialJson, Option.getD_some, bind, Option.bind_some, Record.reread?]
  cases record.plane.point.reread? with
  | none => rfl
  | some point => cases record.plane.normal.reread? <;> rfl

theorem mapM_map {α β γ : Type} {read : β → Option γ} {write : α → β} {reread : α → Option γ}
    (reads : ∀ item, read (write item) = reread item) (items : List α) :
    (items.map write).mapM read = items.mapM reread := by
  rw [List.mapM_map]
  exact congrArg (fun step => items.mapM step) (funext reads)

theorem ledgerOfParts?_json (ledger : Ledger) :
    ledgerOfParts? (.list (ledger.outline.map planarJson)) (.list (ledger.journal.map recordJson)) =
      ledger.reread? := by
  simp only [ledgerOfParts?, Json.list?, mapM_map planar?_planarJson, mapM_map record?_recordJson,
    Ledger.reread?]

theorem ofJson?_json (archive : Archive) :
    ofJson? archive.json =
      archive.ledger.reread?.map fun ledger => (version, ⟨archive.color, ledger⟩) := by
  have ledger? : ledger? (.record
      [("outline", .list (archive.ledger.outline.map planarJson)),
        ("journal", .list (archive.ledger.journal.map recordJson))]) = archive.ledger.reread? := by
    rw [← ledgerOfParts?_json]
    rfl
  have parts : ofJson? archive.json = ofParts? (.natural version.toNat)
      (.optional (fun color => .natural color.packed.toNat) archive.color) (.record
        [("outline", .list (archive.ledger.outline.map planarJson)),
          ("journal", .list (archive.ledger.journal.map recordJson))]) := rfl
  rw [parts, ofParts?, Json.word32?_natural, color?_optional, ledger?]
  cases archive.ledger.reread? <;> rfl

/-! ## The text of an archive -/

theorem printable_record {fields : List (String × Json)}
    (printable : ∀ field ∈ fields, field.2.Printable) : (Json.record fields).Printable := by
  unfold Json.record Json.Printable
  induction fields with
  | nil => trivial
  | cons field fields induction =>
      obtain ⟨first, others⟩ := List.forall_mem_cons.1 printable
      exact ⟨rfl, first, induction others⟩

theorem printable_list {α : Type} {write : α → Json} (printable : ∀ item, (write item).Printable)
    (items : List α) : (Json.list (items.map write)).Printable :=
  Json.printableItems_iff.2 (List.forall_mem_map.2 fun item _ => printable item)

theorem printable_natural (n : Nat) : (Json.natural n).Printable := Json.Number.legal_toDigits

theorem printable_optional {α : Type} {write : α → Json} (printable : ∀ item, (write item).Printable)
    (item : Option α) : (Json.optional write item).Printable := by
  cases item with
  | none => trivial
  | some item => exact printable item

theorem printable_planarJson (point : Planar) : (planarJson point).Printable :=
  ⟨Json.printable_coordinate _, Json.printable_coordinate _, trivial⟩

theorem printable_spatialJson (point : Spatial) : (spatialJson point).Printable :=
  ⟨Json.printable_coordinate _, Json.printable_coordinate _, Json.printable_coordinate _, trivial⟩

theorem printable_recordJson (record : Record) : (recordJson record).Printable := by
  refine printable_record fun field among => ?_
  rcases List.mem_append.1 among with own | shared
  · cases operation : record.operation <;> rw [operation] at own <;>
      simp only [operationFields, List.mem_cons, List.not_mem_nil, or_false] at own
    case rotate degrees =>
      rcases own with rfl | rfl
      · exact rfl
      · exact Json.Number.legal_toDigits
    all_goals
      subst own
      exact rfl
  · simp only [List.mem_cons, List.not_mem_nil, or_false] at shared
    rcases shared with rfl | rfl | rfl
    · exact printable_spatialJson _
    · exact printable_spatialJson _
    · exact printable_optional (fun _ => printable_natural _) _

theorem printable_json (archive : Archive) : archive.json.Printable := by
  refine printable_record fun field among => ?_
  simp only [List.mem_cons, List.not_mem_nil, or_false] at among
  rcases among with rfl | rfl | rfl
  · exact printable_natural _
  · exact printable_optional (fun _ => printable_natural _) _
  · refine printable_record fun field among => ?_
    simp only [List.mem_cons, List.not_mem_nil, or_false] at among
    rcases among with rfl | rfl
    · exact printable_list printable_planarJson _
    · exact printable_list printable_recordJson _

/-- An archive is read back with its color, and with the ledger if all coordinates can be read. -/
theorem read_write (archive : Archive) :
    read archive.write =
      match archive.ledger.reread? with
      | none => .error .unreadableArchive
      | some ledger => .ok ⟨archive.color, ledger⟩ := by
  rw [read, write, Json.read?_write archive.printable_json, Option.bind_some, ofJson?_json]
  cases archive.ledger.reread? <;> rfl

end Archive

/-! ## The coordinates of a ledger -/

def Planar.coordinates (point : Planar) : List Coordinate := [point.x, point.y]

def Spatial.coordinates (point : Spatial) : List Coordinate := [point.x, point.y, point.z]

def Record.coordinates (record : Record) : List Coordinate :=
  record.plane.point.coordinates ++ record.plane.normal.coordinates

/-- The coordinates of the outline and of the journal, which an archive keeps. -/
def Ledger.coordinates (ledger : Ledger) : List Coordinate :=
  ledger.outline.flatMap Planar.coordinates ++ ledger.journal.flatMap Record.coordinates

theorem mapM_self {α : Type} {reread : α → Option α} {items : List α}
    (each : ∀ item ∈ items, reread item = some item) : items.mapM reread = some items := by
  induction items with
  | nil => rfl
  | cons item items induction =>
      obtain ⟨first, others⟩ := List.forall_mem_cons.1 each
      rw [List.mapM_cons, first, induction others]
      rfl

theorem isSome_mapM {α β : Type} {read : α → Option β} {items : List α} :
    (items.mapM read).isSome = true ↔ ∀ item ∈ items, (read item).isSome = true := by
  induction items with
  | nil => simp
  | cons item items induction =>
      rw [List.mapM_cons, List.forall_mem_cons, ← induction]
      cases read item with
      | none => simp
      | some found => cases items.mapM read <;> simp

theorem Planar.isSome_reread? (point : Planar) :
    point.reread?.isSome = true ↔ ∀ x ∈ point.coordinates, x.isFinite = true := by
  simp only [coordinates, List.forall_mem_cons, ← Coordinate.isSome_reread?, reread?]
  cases point.x.reread? <;> cases point.y.reread? <;> simp

theorem Spatial.isSome_reread? (point : Spatial) :
    point.reread?.isSome = true ↔ ∀ x ∈ point.coordinates, x.isFinite = true := by
  simp only [coordinates, List.forall_mem_cons, ← Coordinate.isSome_reread?, reread?]
  cases point.x.reread? <;> cases point.y.reread? <;> cases point.z.reread? <;> simp

theorem Record.isSome_reread? (record : Record) :
    record.reread?.isSome = true ↔ ∀ x ∈ record.coordinates, x.isFinite = true := by
  simp only [coordinates, List.forall_mem_append, ← Spatial.isSome_reread?, reread?]
  cases record.plane.point.reread? <;> cases record.plane.normal.reread? <;> simp

/-- A ledger can be read back if its coordinates are finite, and only then. -/
theorem Ledger.isSome_reread? (ledger : Ledger) :
    ledger.reread?.isSome = true ↔ ∀ x ∈ ledger.coordinates, x.isFinite = true := by
  simp only [coordinates, List.forall_mem_append, List.forall_mem_flatMap,
    ← Planar.isSome_reread?, ← Record.isSome_reread?, ← isSome_mapM, reread?]
  cases ledger.outline.mapM Planar.reread? <;>
    cases ledger.journal.mapM Record.reread? <;> simp

theorem Record.reread?_self {record : Record}
    (same : ∀ x ∈ record.coordinates, x.reread? = some x) : record.reread? = some record := by
  simp only [coordinates, Spatial.coordinates, List.cons_append, List.nil_append,
    List.forall_mem_cons] at same
  obtain ⟨px, py, pz, nx, ny, nz, -⟩ := same
  simp only [reread?, Spatial.reread?, px, py, pz, nx, ny, nz]
  rfl

/-- A ledger whose coordinates are read back as they were is read back without what was undone. -/
theorem Ledger.reread?_self {ledger : Ledger}
    (same : ∀ x ∈ ledger.coordinates, x.reread? = some x) :
    ledger.reread? = some { ledger with undone := [] } := by
  simp only [coordinates, List.forall_mem_append, List.forall_mem_flatMap] at same
  have outline : ledger.outline.mapM Planar.reread? = some ledger.outline :=
    mapM_self fun point among => by
      have each := same.1 point among
      simp only [Planar.coordinates, List.forall_mem_cons] at each
      simp only [Planar.reread?, each.1, each.2.1]
      rfl
  have journal : ledger.journal.mapM Record.reread? = some ledger.journal :=
    mapM_self fun record among => Record.reread?_self (same.2 record among)
  rw [reread?, outline, journal]
  rfl

end PaperFolding
