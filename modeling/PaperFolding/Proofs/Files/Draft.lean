import Mathlib.Data.List.Induction
import PaperFolding.Files.Tree

/-!
The draft that is prepared next to a file has a name of its own. The name of a path is found from the end
of the text and its parts from the beginning; both come to the same name.
-/

namespace PaperFolding

namespace Path

theorem isSlash_iff {c : Char} : isSlash c = true ↔ c = '/' := by simp [isSlash]

/-- What can stand before a part: nothing, or something that ends with a slash. -/
def Leads (front : List Char) : Prop := front = [] ∨ front.getLast? = some '/'

/-- What can stand between two slashes. -/
structure Part (word : List Char) : Prop where
  inhabited : word ≠ []
  uncut : ∀ c ∈ word, isSlash c = false

theorem Leads.runs {front word : List Char} (leads : Leads front) (part : Part word) :
    Text.runs isSlash (front ++ word) = Text.runs isSlash front ++ [word] := by
  rw [← Text.runs_of_uncut part.uncut part.inhabited]
  rcases leads with rfl | slash
  · rfl
  · obtain ⟨init, rfl⟩ := List.getLast?_eq_some_iff.1 slash
    rw [List.append_assoc, List.singleton_append, Text.runs_append rfl, Text.runs_append rfl,
      Text.runs_nil, List.append_nil]

theorem exists_ends (text : List Char) :
    ∃ front word, text = front ++ word ∧ Leads front ∧ ∀ c ∈ word, isSlash c = false := by
  induction text using List.reverseRecOn with
  | nil => exact ⟨[], [], rfl, .inl rfl, fun _ among => absurd among List.not_mem_nil⟩
  | append_singleton text c induction =>
      cases slash : isSlash c with
      | true =>
          obtain rfl := isSlash_iff.1 slash
          exact ⟨text ++ ['/'], [], (List.append_nil _).symm, .inr List.getLast?_concat,
            fun _ among => absurd among List.not_mem_nil⟩
      | false =>
          obtain ⟨front, word, rfl, leads, uncut⟩ := induction
          exact ⟨front, word ++ [c], List.append_assoc .., leads,
            List.forall_mem_append.2 ⟨uncut, List.forall_mem_singleton.2 slash⟩⟩

/-- A text ends with its last part, if it has any, and slashes behind it. -/
theorem exists_last {text word : List Char} (last : (Text.runs isSlash text).getLast? = some word) :
    ∃ front slashes, text = front ++ (word ++ slashes) ∧ Leads front ∧ Part word ∧
      ∀ c ∈ slashes, isSlash c = true := by
  -- Parts are cut off from the front, so the text is taken apart from its end to come to the last one.
  induction text using List.reverseRecOn with
  | nil => cases last
  | append_singleton text c induction =>
      cases slash : isSlash c with
      | true =>
          rw [Text.runs_append slash, Text.runs_nil, List.append_nil] at last
          obtain ⟨front, slashes, rfl, leads, part, cut⟩ := induction last
          refine ⟨front, slashes ++ [c], ?_, leads, part,
            List.forall_mem_append.2 ⟨cut, List.forall_mem_singleton.2 slash⟩⟩
          rw [List.append_assoc, List.append_assoc]
      | false =>
          obtain ⟨front, ends, rfl, leads, uncut⟩ := exists_ends text
          have part : Part (ends ++ [c]) := ⟨List.append_ne_nil_of_right_ne_nil _ (List.cons_ne_nil _ _),
            List.forall_mem_append.2 ⟨uncut, List.forall_mem_singleton.2 slash⟩⟩
          rw [List.append_assoc, leads.runs part, List.getLast?_concat] at last
          obtain rfl := Option.some.inj last
          refine ⟨front, [], ?_, leads, part, fun _ among => absurd among List.not_mem_nil⟩
          rw [List.append_nil, List.append_assoc]

/-! ## The name of a path -/

/-- Nothing is cut off here: there is neither a slash nor a dot that is a part. -/
structure Settled (path : List Char) : Prop where
  slash : ∀ rest, path ≠ '/' :: rest
  dot : path ≠ ['.']
  dotSlash : ∀ rest, path ≠ '.' :: '/' :: rest

theorem Settled.lead {path : List Char} (settled : Settled path) : lead path = 0 := by
  unfold Path.lead
  split
  · exact absurd rfl (settled.slash _)
  · exact absurd rfl settled.dot
  · exact absurd rfl (settled.dotSlash _)
  · rfl

theorem Settled.trimParts {path : List Char} (settled : Settled path) (fuel : Nat) :
    trimParts fuel path = path := by
  cases fuel with
  | zero => rfl
  | succ fuel =>
      rw [Path.trimParts]
      · exact settled.slash
      · exact settled.dot
      · exact settled.dotSlash

theorem Part.settled {word : List Char} (part : Part word) (undotted : word ≠ ['.'])
    (others : List Char) : Settled (word ++ others) := by
  obtain ⟨inhabited, uncut⟩ := part
  cases word with
  | nil => exact absurd rfl inhabited
  | cons c word =>
      obtain ⟨here, behind⟩ := List.forall_mem_cons.1 uncut
      refine ⟨fun rest same => ?_, fun same => ?_, fun rest same => ?_⟩
      · cases (List.cons.inj same).1
        cases here
      · obtain ⟨rfl, none⟩ := List.cons.inj same
        rw [(List.append_eq_nil_iff.1 none).1] at undotted
        exact undotted rfl
      · obtain ⟨rfl, next⟩ := List.cons.inj same
        cases word with
        | nil => exact undotted rfl
        | cons d word =>
            cases (List.cons.inj next).1
            cases (List.forall_mem_cons.1 behind).1

theorem trimParts_slashes {slashes path : List Char} (cut : ∀ c ∈ slashes, isSlash c = true)
    (settled : Settled path) {fuel : Nat} (enough : slashes.length ≤ fuel) :
    trimParts fuel (slashes ++ path) = path := by
  induction slashes generalizing fuel with
  | nil => exact settled.trimParts fuel
  | cons c slashes induction =>
      obtain ⟨here, others⟩ := List.forall_mem_cons.1 cut
      obtain rfl := isSlash_iff.1 here
      cases fuel with
      | zero => cases enough
      | succ fuel => exact induction others (Nat.le_of_succ_le_succ enough)

theorem Leads.tail {c : Char} {front : List Char} (leads : Leads (c :: front)) : Leads front := by
  cases front with
  | nil => exact .inl rfl
  | cons d front => exact leads.imp nofun (List.getLast?_cons_cons ▸ ·)

/-- What is never cut off at the start of a path is in front of its last part. -/
theorem exists_drop_lead {front word : List Char} (leads : Leads front) (part : Part word)
    (undotted : word ≠ ['.']) (slashes : List Char) :
    ∃ kept, (front ++ (word ++ slashes)).drop (lead (front ++ (word ++ slashes))) =
      kept ++ (word ++ slashes) ∧ Leads kept := by
  cases front with
  | nil =>
      refine ⟨[], ?_, leads⟩
      rw [List.nil_append, (part.settled undotted slashes).lead, List.drop_zero]
  | cons c front =>
      have short : lead (c :: front ++ (word ++ slashes)) ≤ 1 := by
        unfold lead
        split <;> omega
      rcases Nat.le_one_iff_eq_zero_or_eq_one.1 short with none | one
      · exact ⟨c :: front, by rw [none, List.drop_zero], leads⟩
      · exact ⟨front, by rw [one, List.cons_append, List.drop_one, List.tail_cons], leads.tail⟩

theorem Part.reverse {word : List Char} (part : Part word) : Part word.reverse :=
  ⟨List.reverse_ne_nil_iff.2 part.inhabited, fun c among => part.uncut c (List.mem_reverse.1 among)⟩

/-- From the end a path begins with its last part, once the slashes behind it are cut off. -/
theorem body_of_last {path : String} {front word slashes : List Char}
    (whole : path.toList = front ++ (word ++ slashes)) (leads : Leads front) (part : Part word)
    (undotted : word ≠ ['.']) (cut : ∀ c ∈ slashes, isSlash c = true) :
    ∃ kept, body path = word.reverse ++ kept.reverse ∧ Leads kept := by
  obtain ⟨kept, dropped, leads⟩ := exists_drop_lead leads part undotted slashes
  refine ⟨kept, ?_, leads⟩
  have undotted' : word.reverse ≠ ['.'] := by
    intro dot
    exact undotted (List.reverse_eq_iff.1 dot)
  have cut' : ∀ c ∈ slashes.reverse, isSlash c = true := fun c among =>
    cut c (List.mem_reverse.1 among)
  rw [body, whole, dropped]
  simp only [List.reverse_append, List.append_assoc]
  refine trimParts_slashes cut' (part.reverse.settled undotted' _) ?_
  simp

theorem takeWhile_part {word front : List Char} (part : Part word) (leads : Leads front) :
    (word.reverse ++ front.reverse).takeWhile (fun c => !isSlash c) = word.reverse := by
  have stops : front.reverse.takeWhile (fun c => !isSlash c) = [] := by
    rcases leads with rfl | slash
    · rfl
    · obtain ⟨init, rfl⟩ := List.getLast?_eq_some_iff.1 slash
      rw [List.reverse_append]
      rfl
  rw [List.takeWhile_append_of_pos, stops, List.append_nil]
  intro c among
  rw [part.reverse.uncut c among]
  rfl

/-- The last part of a path is its name, unless it is a dot or two. -/
theorem name?_of_last {path name : String} (last : (parts path).getLast? = some name)
    (undotted : name ≠ ".") (undotted' : name ≠ "..") : name? path = some name := by
  rw [parts, List.getLast?_map, Option.map_eq_some_iff] at last
  obtain ⟨word, found, rfl⟩ := last
  obtain ⟨front, slashes, whole, leads, part, cut⟩ := exists_last found
  have single : word ≠ ['.'] := fun same => undotted (congrArg String.ofList same)
  have double : word ≠ ['.', '.'] := fun same => undotted' (congrArg String.ofList same)
  obtain ⟨kept, body, leads⟩ := body_of_last whole leads part single cut
  rw [name?, body, takeWhile_part part leads, List.reverse_reverse]
  exact if_neg (not_or.2 ⟨part.inhabited, double⟩)

theorem part_of_name? {path name : String} (found : name? path = some name) : Part name.toList := by
  unfold name? at found
  dsimp only at found
  split at found
  · cases found
  · rename_i proper
    obtain rfl := Option.some.inj found
    rw [String.toList_ofList]
    refine ⟨(not_or.1 proper).1, fun c among => ?_⟩
    have all := List.all_takeWhile (p := fun c => !isSlash c) (l := body path)
    simpa using List.all_eq_true.1 all c (List.mem_reverse.1 among)

/-! ## The draft -/

/-- The name of the draft that is prepared for a path, whatever is in front of it. -/
def draftName (path : String) : String := (name? path).getD "" ++ ".tmp"

theorem part_draftName (path : String) : Part (draftName path).toList := by
  rw [draftName, String.toList_append]
  have ending : ∀ c ∈ ".tmp".toList, isSlash c = false := by simp [isSlash]
  refine ⟨List.append_ne_nil_of_right_ne_nil _ (List.cons_ne_nil '.' ['t', 'm', 'p']),
    List.forall_mem_append.2 ⟨?_, ending⟩⟩
  cases found : name? path with
  | none => exact fun _ among => absurd among List.not_mem_nil
  | some name => exact (part_of_name? found).uncut

theorem exists_join (path next : String) :
    ∃ front, (join path next).toList = front ++ next.toList ∧ Leads front := by
  unfold join
  split
  · exact ⟨[], rfl, .inl rfl⟩
  · split
    · rename_i slash
      exact ⟨path.toList, String.toList_append, .inr slash⟩
    · exact ⟨path.toList ++ ['/'], by rw [String.toList_append, String.toList_append]; rfl,
        .inr List.getLast?_concat⟩

theorem exists_temporary (path : String) :
    ∃ front, (temporary path).toList = front ++ (draftName path).toList ∧ Leads front := by
  unfold temporary withName
  split <;> exact exists_join _ (draftName path)

theorem last_temporary (path : String) :
    (parts (temporary path)).getLast? = some (draftName path) := by
  obtain ⟨front, whole, leads⟩ := exists_temporary path
  rw [parts, whole, leads.runs (part_draftName path), List.map_append, List.map_singleton,
    List.getLast?_concat, String.ofList_toList]

theorem four_le_length_draftName (path : String) : 4 ≤ (draftName path).length := by
  rw [draftName, String.length_append]
  exact Nat.le_add_left ..

theorem draftName_proper (path : String) : ¬ (draftName path = "." ∨ draftName path = "..") := by
  have long := four_le_length_draftName path
  rintro (same | same) <;> exact absurd (same ▸ long) (by decide)

theorem temporary_unslashed (path : String) : (temporary path).toList.getLast? ≠ some '/' := by
  obtain ⟨front, whole, -⟩ := exists_temporary path
  rw [whole, draftName, String.toList_append, ← List.append_assoc,
    show ".tmp".toList = ['.', 't', 'm'] ++ ['p'] from rfl, ← List.append_assoc, List.getLast?_concat]
  decide

end Path

namespace FileTree

open PaperFolding.Path

variable {tree : FileTree} {path : String} {destination : Destination}

theorem locate_spec (located : tree.locate path = .ok destination) :
    destination.slash = decide (path.toList.getLast? = some '/') ∧
      destination.name = (parts path).getLast?.filter fun last => ¬ (last = "." ∨ last = "..") := by
  have walked {start : Place} {steps : List String} {name : Option String} {slash : Bool}
      (done : (tree.walk start steps).map (⟨·, name, slash⟩) = .ok destination) :
      destination.slash = slash ∧ destination.name = name := by
    cases reached : tree.walk start steps with
    | error error =>
        rw [reached] at done
        cases done
    | ok place =>
        rw [reached] at done
        cases done
        exact ⟨rfl, rfl⟩
  unfold locate at located
  dsimp only at located
  split at located
  · cases located
  · split at located
    · cases located
    · split at located
      · cases located
      · split at located
        · rename_i none
          cases located
          exact ⟨rfl, by rw [none]; rfl⟩
        · rename_i last found
          rw [found]
          split at located
          · rename_i dots
            refine (walked located).imp_right fun named => ?_
            rw [named, Option.filter_some, if_neg (mt of_decide_eq_true (not_not_intro dots))]
          · rename_i proper
            refine (walked located).imp_right fun named => ?_
            rw [named, Option.filter_some, if_pos (decide_eq_true proper)]

theorem locate_temporary (located : tree.locate (temporary path) = .ok destination) :
    destination.slash = false ∧ destination.name = some (draftName path) := by
  obtain ⟨slash, name⟩ := locate_spec located
  rw [slash, name, last_temporary, Option.filter_some, if_pos (decide_eq_true (draftName_proper path))]
  exact ⟨decide_eq_false (temporary_unslashed path), rfl⟩

/-- Whatever a path leads to, it has another name than the draft for it. -/
theorem name_ne_draftName (located : tree.locate path = .ok destination) :
    destination.name ≠ some (draftName path) := by
  intro named
  rw [(locate_spec located).2, Option.filter_eq_some_iff, decide_eq_true_iff, not_or] at named
  obtain ⟨last, undotted⟩ := named
  have same := name?_of_last last undotted.1 undotted.2
  have longer : (draftName path).length = (draftName path).length + 4 := by
    conv_lhs => rw [draftName, same, Option.getD_some, String.length_append]
    rfl
  omega

end FileTree

end PaperFolding
