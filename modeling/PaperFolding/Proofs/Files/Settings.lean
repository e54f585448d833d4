import PaperFolding.Proofs.Files.Replacement
import PaperFolding.Proofs.Json.Layout
import PaperFolding.Proofs.Paper.Archive
import PaperFolding.Settings

/-!
Settings are read back as they were kept. Of a file that somebody wrote by hand, the fields that are known
are taken wherever they stand and however they are laid out, and the standard fills in the others.
-/

namespace PaperFolding

theorem FileTree.has_of_readText {files : FileTree} {path text : String}
    (found : files.readText path = .ok text) : files.has path = true := by
  rw [has]
  cases looked : files.lookup path with
  | ok node => rfl
  | error error => simp [readText, read, looked, bind, Except.bind] at found

/-! ## Fields by name -/

namespace Json

/-- The entries that have a value. -/
def held (entries : List (String × Option Json)) : List (String × Json) :=
  entries.filterMap fun (name, value) => value.map (name, ·)

theorem mem_names_of_mem_held {entries : List (String × Option Json)} {field : String × Json}
    (among : field ∈ held entries) : field.1 ∈ entries.map Prod.fst := by
  obtain ⟨⟨name, value⟩, listed, kept⟩ := List.mem_filterMap.1 among
  obtain ⟨value, -, rfl⟩ := Option.map_eq_some_iff.1 kept
  exact List.mem_map_of_mem listed

/-- If no name is listed twice, a name leads to its own entry. -/
theorem filter_held {entries : List (String × Option Json)} (apart : (entries.map Prod.fst).Nodup)
    {name : String} {value : Option Json} (listed : (name, value) ∈ entries) :
    (held entries).filter (fun field => field.1 = name) = (value.map (name, ·)).toList := by
  induction entries with
  | nil => cases listed
  | cons entry entries induction =>
      obtain ⟨fresh, apart⟩ := List.nodup_cons.1 apart
      have split : held (entry :: entries) = (entry.2.map (entry.1, ·)).toList ++ held entries := by
        obtain ⟨other, found⟩ := entry
        cases found <;> rfl
      rw [split, List.filter_append]
      rcases List.mem_cons.1 listed with rfl | listed
      · have others : (held entries).filter (fun field => field.1 = name) = [] := by
          refine List.filter_eq_nil_iff.2 fun field among => ?_
          rw [decide_eq_true_iff]
          rintro rfl
          exact fresh (mem_names_of_mem_held among)
        rw [others, List.append_nil]
        cases value with
        | none => rfl
        | some value => exact List.filter_eq_self.2 (by simp)
      · have other : entry.1 ≠ name := fun same => fresh (same ▸ List.mem_map_of_mem listed)
        rw [induction apart listed]
        obtain ⟨called, found⟩ := entry
        cases found with
        | none => rfl
        | some found => simp [other]

theorem field?_record {name : String} {fields : List (String × Json)} {value : Option Json}
    (single : fields.filter (fun field => field.1 = name) = (value.map (name, ·)).toList) :
    field? name (fields.map fun (name, value) => (some name, value)) = some value := by
  have own : (fields.map fun (name, value) => (some name, value)).filter
      (fun field => field.1 = some name) = (value.map (some name, ·)).toList := by
    rw [List.filter_map]
    have same : ((fun field : Option String × Json => decide (field.1 = some name)) ∘
        fun (name, value) => (some name, value)) = fun field : String × Json => field.1 = name := by
      funext field
      simp
    rw [same, single]
    cases value <;> rfl
  rw [field?, own]
  cases value <;> rfl

theorem named_record (fields : List (String × Json)) :
    named (fields.map fun (name, value) => (some name, value)) = true := by
  simp [named]

end Json

namespace Settings

/-! ## Some of the settings -/

/-- What a file says, which may be nothing about any of the settings. -/
structure Given where
  initialWait : Option UInt64
  extendedWait : Option UInt64
  access : Option Level
  frameSize : Option UInt32
  initialColor : Option Color
  resetColor : Option Color
deriving DecidableEq, Repr

def names : List String :=
  ["initial_wait_secs", "extended_wait_secs", "default_access", "export_size",
    "initial_paper_color", "reset_paper_color"]

namespace Given

def entries (given : Given) : List (String × Option Json) :=
  [("initial_wait_secs", given.initialWait.map fun wait => .natural wait.toNat),
    ("extended_wait_secs", given.extendedWait.map fun wait => .natural wait.toNat),
    ("default_access", given.access.map fun level => .string level.slug),
    ("export_size", given.frameSize.map fun size => .natural size.toNat),
    ("initial_paper_color", given.initialColor.map fun color => .natural color.packed.toNat),
    ("reset_paper_color", given.resetColor.map fun color => .natural color.packed.toNat)]

/-- The fields for what is given. -/
def fields (given : Given) : List (String × Json) := Json.held given.entries

/-- What is given, and the standard for the rest. -/
def completed (given : Given) : Settings where
  initialWait := given.initialWait.getD standard.initialWait
  extendedWait := given.extendedWait.getD standard.extendedWait
  access := given.access.getD standard.access
  frameSize := given.frameSize.getD standard.frameSize
  initialColor := given.initialColor.getD standard.initialColor
  resetColor := given.resetColor.getD standard.resetColor

end Given

def given (settings : Settings) : Given :=
  ⟨some settings.initialWait, some settings.extendedWait, some settings.access,
    some settings.frameSize, some settings.initialColor, some settings.resetColor⟩

theorem reading_map {α : Type} {read : Json → Option α} {write : α → Json}
    (inverse : ∀ item, read (write item) = some item) (standard : α) (item : Option α) :
    reading read standard (item.map write) = some (item.getD standard) := by
  cases item with
  | none => rfl
  | some item => exact inverse item

theorem level?_slug (level : Level) : level? (.string level.slug) = some level :=
  Level.ofSlug?_slug level

theorem color?_natural (color : Color) : color? (.natural color.packed.toNat) = some color := by
  rw [color?, Json.word32?_natural]
  rfl

theorem ofParts?_given (given : Given) :
    ofParts? (given.initialWait.map fun wait => .natural wait.toNat)
        (given.extendedWait.map fun wait => .natural wait.toNat)
        (given.access.map fun level => .string level.slug)
        (given.frameSize.map fun size => .natural size.toNat)
        (given.initialColor.map fun color => .natural color.packed.toNat)
        (given.resetColor.map fun color => .natural color.packed.toNat) =
      some given.completed := by
  simp only [ofParts?, reading_map Json.word64?_natural, reading_map level?_slug,
    reading_map Json.word32?_natural, reading_map color?_natural]
  rfl

/-- The known fields tell the settings, in any order and between any others. -/
theorem ofJson?_record {fields : List (String × Json)} {given : Given}
    (told : (fields.filter fun field => field.1 ∈ names).Perm given.fields) :
    ofJson? (.record fields) = some given.completed := by
  have apart : (given.entries.map Prod.fst).Nodup := by
    show names.Nodup
    decide
  have found {name : String} {value : Option Json} (listed : (name, value) ∈ given.entries) :
      Json.field? name (fields.map fun (name, value) => (some name, value)) = some value := by
    have known : name ∈ names := List.mem_map_of_mem (f := Prod.fst) listed
    have own : (fields.filter fun field => field.1 ∈ names).filter (fun field => field.1 = name) =
        fields.filter (fun field => field.1 = name) := by
      rw [List.filter_filter]
      refine List.filter_congr fun field _ => ?_
      by_cases same : field.1 = name
      · simp [same, known]
      · simp [same]
    refine Json.field?_record ?_
    have alike := told.filter fun field => field.1 = name
    rw [own, Given.fields, Json.filter_held apart listed] at alike
    cases value with
    | none => exact alike.eq_nil
    | some value => exact alike.eq_singleton
  rw [Json.record, ofJson?, if_pos (Json.named_record fields)]
  simp only [found (.head _), found (.tail _ (.head _)), found (.tail _ (.tail _ (.head _))),
    found (.tail _ (.tail _ (.tail _ (.head _)))),
    found (.tail _ (.tail _ (.tail _ (.tail _ (.head _))))),
    found (.tail _ (.tail _ (.tail _ (.tail _ (.tail _ (.head _)))))), bind, Option.bind_some]
  exact ofParts?_given given

/-! ## The file -/

theorem json_eq (settings : Settings) : settings.json = .record settings.given.fields := rfl

theorem filter_fields (given : Given) :
    given.fields.filter (fun field => field.1 ∈ names) = given.fields :=
  List.filter_eq_self.2 fun _ among => decide_eq_true (Json.mem_names_of_mem_held among)

theorem printable_json (settings : Settings) : settings.json.Printable := by
  refine Archive.printable_record fun field among => ?_
  simp only [List.mem_cons, List.not_mem_nil, or_false] at among
  rcases among with rfl | rfl | rfl | rfl | rfl | rfl
  case inr.inr.inl => exact rfl
  all_goals exact Archive.printable_natural _

theorem read?_write (settings : Settings) : read? settings.write = some settings := by
  rw [read?, write, Json.read?_write settings.printable_json, json_eq]
  exact ofJson?_record (.of_eq (filter_fields settings.given))

theorem read?_page {page : Json.Page} {fields : List (String × Json)} {given : Given}
    (laid : page.value = .record fields)
    (told : (fields.filter fun field => field.1 ∈ names).Perm given.fields) :
    read? page.text = some given.completed := by
  rw [read?, Json.read?_page, laid]
  exact ofJson?_record told

theorem load_of_readText {files : FileTree} {directory text : String} {settings : Settings}
    (found : files.readText (Path.settings directory) = .ok text)
    (reads : read? text = some settings) : load files directory = .ok (some settings) := by
  have present : files.has (Path.settings directory) = true := FileTree.has_of_readText found
  simp only [load, present, if_true, found, reads]

theorem readText_of_save {files after : FileTree} {directory : String} {settings : Settings}
    (saved : save files directory settings = (.ok (), after)) :
    after.readText (Path.settings directory) = .ok settings.write := by
  unfold save at saved
  cases made : files.makeDirectory directory with
  | error error =>
      rw [made] at saved
      cases saved
  | ok files =>
      rw [made] at saved
      dsimp only at saved
      cases replaced : files.replace (Path.settings directory) settings.write.toUTF8 with
      | mk result kept =>
          rw [replaced] at saved
          cases result with
          | error error => cases saved
          | ok _ =>
              obtain rfl : kept = after := (Prod.mk.inj saved).2
              exact FileTree.readText_of_replace replaced

/-- Settings that could be saved are loaded as they were. A file with an object is loaded too, however it is
laid out and whatever else stands in the object under names that are texts, as long as each of the settings
is given at most once and by a value of its kind: what is given is taken, and what is not is standard. -/
theorem load_completes (files : FileTree) (directory : String) :
    (∀ settings after, save files directory settings = (.ok (), after) →
        load after directory = .ok (some settings)) ∧
      ∀ (page : Json.Page) (fields : List (String × Json)) (given : Given),
        files.readText (Path.settings directory) = .ok page.text →
        page.value = .record fields →
        (fields.filter fun field => field.1 ∈ names).Perm given.fields →
        load files directory = .ok (some given.completed) := by
  refine ⟨fun settings after saved => ?_, fun page fields given found laid told => ?_⟩
  · exact load_of_readText (readText_of_save saved) (read?_write settings)
  · exact load_of_readText found (read?_page laid told)

/-- A text of which every character stands for itself. -/
def plainly (text : String) : List Json.Stroke :=
  text.toList.filterMap fun c =>
    if plain : c ≠ '\"' ∧ c ≠ '\\' ∧ ¬ c.toNat < 0x20 then
      some (.plain c plain.1 plain.2.1 plain.2.2)
    else none

/-- The last setting and one of the first, in this order and after an unknown field that holds an object
with a field of a known name; the level is `dev`, its first letter in hexadecimal. -/
def scribbled : Json.Page where
  front := []
  body := .object
    (.more ⟨[.lineFeed], plainly "tint", []⟩ [.space]
      (.list (.last [] (.object (.last ⟨[], plainly "export_size", []⟩ [] .null [.tab])) [])) []
    (.more ⟨[.lineFeed], plainly "reset_paper_color", [.space]⟩ []
      (.number ⟨false, Nat.toDigits 10 7, none, none, Json.Number.legal_toDigits⟩) []
    (.last ⟨[], plainly "default_access", []⟩ []
      (.text (.unit ⟨false, 0⟩ ⟨false, 0⟩ ⟨false, 6⟩ ⟨false, 4⟩ :: plainly "ev")) [.space])))
  back := [.carriageReturn, .lineFeed]

/-- A directory with this file. -/
def scribbledFiles : FileTree := ⟨[], [(["foldscript.json"], .file scribbled.text.toUTF8)], .willing⟩

/-- Settings at the ends of their ranges. -/
def extreme : Settings := ⟨0, 0xFFFFFFFFFFFFFFFF, .root, 0xFFFFFFFF, ⟨0xFFFFFFFF⟩, ⟨0⟩⟩

theorem load_completes_scribbled :
    (save scribbledFiles "." extreme).1 = .ok () ∧
      load (save scribbledFiles "." extreme).2 "." = .ok (some extreme) ∧
      scribbledFiles.readText (Path.settings ".") = .ok scribbled.text ∧
      load scribbledFiles "." = .ok (some ⟨10, 30, .dev, 250, .blue, ⟨7⟩⟩) := by
  have saves : (save scribbledFiles "." extreme).1 = .ok () := by decide +kernel
  have found : scribbledFiles.readText (Path.settings ".") = .ok scribbled.text :=
    FileTree.readText_of_read rfl
  refine ⟨saves, ?_, found, ?_⟩
  · exact (load_completes scribbledFiles ".").1 _ _ (Prod.ext saves rfl)
  · exact (load_completes scribbledFiles ".").2 scribbled
      [("tint", .list [.record [("export_size", .null)]]), ("reset_paper_color", .natural 7),
        ("default_access", .string "dev")]
      ⟨none, none, some .dev, none, none, some ⟨7⟩⟩ found rfl (.swap ..)

end Settings

end PaperFolding
