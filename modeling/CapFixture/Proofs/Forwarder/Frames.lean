import CapFixture.Proofs.Forwarder.Guards

/-!
# The frames of thunks

A thunk keeps alive what its pointer arguments point to. Its frame has one slot for the argument
buffer and one for each pointer, and every slot is written once, in order, as soon as its pointer
has been pulled. The lines are read by what they start with, so nothing is asked of the names.

## Main definitions

- `starting` — what follows the start that some lines have in common
- `TracksPointers` — lines that lay out a frame and fill all of its slots
-/

namespace CapFixture.Forwarder

variable {s : Signature} {mark start : String} {lines more : List String}

/-- The lines without their indentation. -/
def texts (c : Code) : List String := c.map Line.text

/-- What follows `mark` in the lines that start with it. -/
def starting (mark : String) (lines : List String) : List String := lines.filterMap (after? mark)

/-- The places of the pointers among the arguments. -/
def pointerPlaces (s : Signature) : List Nat :=
  s.arguments.idxsOf (Argument.value .filcPtr)

/-- One slot for the buffer and one for each pointer. -/
def frameSize (s : Signature) : Nat := 1 + s.arguments.count (Argument.value .filcPtr)

/-- The line that pulls the pointer at a place of the arguments. -/
def pullText (place : Nat) : String :=
  "filc_ptr arg" ++ toString place ++ " = filc_ptr_get_next_ptr_with_manual_tracking(&args);"

/-- How the line that writes to a slot goes on. -/
def writeText (slot : Nat) (pointer : String) : String :=
  toString slot ++ "] = filc_ptr_object(" ++ pointer ++ ");"

/-- Lines that lay out a frame with a slot for the buffer and one for each pointer, and that write
every slot once, in order. -/
structure TracksPointers (s : Signature) (lines : List String) : Prop where
  origin : starting "FILC_DEFINE_RUNTIME_ORIGIN(" lines =
    ["origin, \"" ++ s.name ++ "\", " ++ toString (frameSize s) ++ ");"]
  array : starting "filc_object* objects[" lines =
    [toString (frameSize s) ++ "];"]
  writes : starting "frame->objects[" lines =
    ("args" :: (pointerPlaces s).map fun place => "arg" ++ toString place).mapIdx writeText
  /-- There are as many writes as slots. -/
  length_writes : (starting "frame->objects[" lines).length = frameSize s
  /-- Nothing comes between the pull of a pointer and the write of its slot. -/
  directly : ∀ j place, (pointerPlaces s)[j]? = some place →
    [pullText place, "frame->objects[" ++ writeText (j + 1) ("arg" ++ toString place)] <:+: lines
  /-- Every pointer has its place. -/
  tracked : ∀ place : Nat, s.arguments[place]? = some (Argument.value .filcPtr) →
    ∃ j : Nat, (pointerPlaces s)[j]? = some place

/-! ### Starts of lines -/

theorem starting_append :
    starting mark (lines ++ more) = starting mark lines ++ starting mark more :=
  List.filterMap_append

/-- Nothing follows a mark in a text that does not start with it. -/
theorem after?_eq_none {text : String} (h : ¬ mark.toList <+: text.toList) :
    after? mark text = none := by
  rw [Option.eq_none_iff_forall_ne_some]
  rintro rest hrest
  refine h ⟨rest.toList, ?_⟩
  rw [← String.toList_append, after?_eq_some_iff.mp hrest]

theorem starting_cons_self (rest : String) :
    starting mark ((mark ++ rest) :: lines) = rest :: starting mark lines :=
  List.filterMap_cons_some (after?_append mark rest)

/-- A line that starts differently. -/
theorem starting_cons_other (hmark : ¬ mark.toList <+: start.toList)
    (hstart : ¬ start.toList <+: mark.toList) (rest : String) :
    starting mark ((start ++ rest) :: lines) = starting mark lines :=
  List.filterMap_cons_none (after?_append_eq_none mark start hmark hstart rest)

/-- The starts of the lines that lay out a frame or write to one of its slots. -/
def frameMarks : List String :=
  ["FILC_DEFINE_RUNTIME_ORIGIN(", "filc_object* objects[", "frame->objects["]

/-- Starts differently from those lines, however it goes on. -/
def Aside (text : String) : Prop := ∀ mark ∈ frameMarks,
  ¬ mark.toList <+: text.toList ∧ ¬ text.toList <+: mark.toList

instance : DecidablePred Aside := fun text =>
  inferInstanceAs (Decidable (∀ mark ∈ frameMarks,
    ¬ mark.toList <+: text.toList ∧ ¬ text.toList <+: mark.toList))

theorem Aside.append (h : Aside start) (rest : String) : Aside (start ++ rest) := by
  intro mark hmark
  obtain ⟨hmarkStart, hstartMark⟩ := h mark hmark
  have hstart : start.toList <+: (start ++ rest).toList := by
    rw [String.toList_append]
    exact List.prefix_append ..
  refine ⟨fun hlong => ?_, fun hshort => hstartMark (hstart.trans hshort)⟩
  exact (List.prefix_or_prefix_of_prefix hlong hstart).elim hmarkStart hstartMark

theorem starting_of_aside (hmark : mark ∈ frameMarks) (h : ∀ line ∈ lines, Aside line) :
    starting mark lines = [] :=
  List.filterMap_eq_nil_iff.mpr fun line hline => after?_eq_none (h line hline mark hmark).1

theorem aside_typeName (type : ValueType) : Aside type.name := by
  cases type <;> decide

theorem aside_nativeResult (s : Signature) : Aside s.nativeResult := by
  have hthrows : Aside "filc_exception_and_" := by decide
  unfold Signature.nativeResult
  split
  · exact hthrows.append _
  · cases s.result with
    | void => decide
    | value type => exact aside_typeName type

namespace Thunk

open Statement

/-- A statement that leaves the slots of the frame alone. -/
def Statement.IsAside (statement : Statement) : Prop := ∀ line ∈ statement.lines, Aside line

theorem isAside_pull (index : Nat) (type : ValueType) : (pull index type).IsAside := by
  refine List.forall_mem_singleton.mpr ?_
  exact ((((((aside_typeName type).append _).append _).append _).append _).append _).append _
    |>.append _

theorem isAside_checkStore (type : ValueType) : (checkStore type).IsAside := by
  have hint : Aside "filc_check_write_int(rets, sizeof(" := by decide
  rw [Statement.IsAside, lines]
  split
  · exact List.forall_mem_singleton.mpr (by decide)
  · exact List.forall_mem_singleton.mpr ((hint.append _).append _)

theorem isAside_callNative (s : Signature) {resultType : Option String}
    (h : ∀ type ∈ resultType, type = s.nativeResult) : (callNative s resultType).IsAside := by
  have hnative : Aside "filc_native_" := by decide
  refine List.forall_mem_singleton.mpr ?_
  iterate 3 apply Aside.append
  cases resultType with
  | none =>
    rw [String.empty_append]
    exact hnative.append s.name
  | some type =>
    rw [h type rfl]
    exact ((aside_nativeResult s).append _).append _

theorem isAside_callAndStore (s : Signature) : ∀ statement ∈ callAndStore s, statement.IsAside := by
  have hstar : Aside "*(" := by decide
  have hstore : ∀ type value, (store type value).IsAside := by
    intro type value
    refine List.forall_mem_singleton.mpr ?_
    iterate 4 apply Aside.append
    exact hstar
  have hignoreStore : ignoreStore.IsAside := List.forall_mem_singleton.mpr (by decide)
  unfold callAndStore
  split
  · refine List.forall_mem_cons.mpr ⟨isAside_callNative s ?_,
      List.forall_mem_singleton.mpr hignoreStore⟩
    split <;> simp
  · exact List.forall_mem_cons.mpr ⟨isAside_checkStore _, List.forall_mem_cons.mpr
      ⟨isAside_callNative s (by simp), List.forall_mem_singleton.mpr (hstore _ _)⟩⟩

theorem isAside_popFrames : popFrames.IsAside :=
  List.forall_mem_cons.mpr ⟨by decide, List.forall_mem_singleton.mpr (by decide)⟩

theorem isAside_giveBack (value : String) : (giveBack value).IsAside := by
  have hreturn : Aside "return " := by decide
  exact List.forall_mem_singleton.mpr ((hreturn.append _).append _)

/-! ### Setting up the frame -/

/-- Two lines say how many slots there are, and none writes to them. -/
theorem starting_setUp (t : Thunk) :
    starting "FILC_DEFINE_RUNTIME_ORIGIN(" (texts (setUp t)) =
        ["origin, \"" ++ t.name ++ "\", " ++ toString t.slots ++ ");"] ∧
      starting "filc_object* objects[" (texts (setUp t)) = [toString t.slots ++ "];"] ∧
      starting "frame->objects[" (texts (setUp t)) = [] := by
  let middle := ["struct \x7b", "FILC_FRAME_BODY;"]
  let rest := ["\x7d actual_frame;", "pas_zero_memory(&actual_frame, sizeof(actual_frame));",
    "filc_frame* frame = (filc_frame*)&actual_frame;", "frame->origin = &origin;",
    "filc_native_frame native_frame;", "filc_push_frame(my_thread, frame);",
    "filc_push_native_frame(my_thread, &native_frame);"]
  have htexts : texts (setUp t) =
      ("FILC_DEFINE_RUNTIME_ORIGIN(" ++ ("origin, \"" ++ t.name ++ "\", " ++ toString t.slots ++
        ");")) :: (middle ++ ("filc_object* objects[" ++ (toString t.slots ++ "];")) :: rest) := by
    simp [texts, setUp, Code.line, Code.indented, middle, rest, ← String.append_assoc]
  -- all other lines are the same in every thunk
  have haside : ∀ mark ∈ frameMarks, starting mark middle = [] ∧ starting mark rest = [] :=
    fun mark hmark => ⟨starting_of_aside hmark (by decide), starting_of_aside hmark (by decide)⟩
  have horigin := haside "FILC_DEFINE_RUNTIME_ORIGIN(" (by decide)
  have harray := haside "filc_object* objects[" (by decide)
  have hwrites := haside "frame->objects[" (by decide)
  rw [htexts]
  refine ⟨?_, ?_, ?_⟩
  · rw [starting_cons_self, starting_append, starting_cons_other (by decide) (by decide),
      horigin.1, horigin.2]
    rfl
  · rw [starting_cons_other (by decide) (by decide), starting_append, starting_cons_self, harray.1,
      harray.2]
    rfl
  · rw [starting_cons_other (by decide) (by decide), starting_append,
      starting_cons_other (by decide) (by decide), hwrites.1, hwrites.2]
    rfl

/-! ### Pulling the arguments -/

theorem lines_pull_filcPtr (index : Nat) : (pull index .filcPtr).lines = [pullText index] := by
  apply congrArg fun text => [text]
  apply String.toList_injective
  simp [pullText, ValueType.name, argumentName, cursorGetter, cursorName]

theorem lines_track (slot : Nat) (pointer : String) :
    (track slot pointer).lines = ["frame->objects[" ++ writeText slot pointer] := by
  apply congrArg fun text => [text]
  simp only [writeText, String.append_assoc]

theorem starting_flatMap_cons (statement : Statement) (body : List Statement) :
    starting mark ((statement :: body).flatMap Statement.lines) =
      starting mark statement.lines ++ starting mark (body.flatMap Statement.lines) := by
  rw [List.flatMap_cons, starting_append]

/-- The pointers from a place on are tracked in the slots from `slot` on. -/
theorem starting_pulls (index slot : Nat) (args : List Argument) :
    starting "frame->objects[" ((pulls index slot args).flatMap Statement.lines) =
      ((args.idxsOf (.value .filcPtr) index).map argumentName).mapIdx fun j =>
        writeText (slot + j) := by
  have hmark : "frame->objects[" ∈ frameMarks := by decide
  induction index, slot, args using pulls.induct with
  | case1 index slot => rfl
  | case2 index slot rest ih =>
    have hshift : (fun j => writeText (slot + (j + 1))) = fun j => writeText (slot + 1 + j) :=
      funext fun j => congrArg writeText (by omega)
    rw [pulls, starting_flatMap_cons, starting_flatMap_cons,
      starting_of_aside hmark (isAside_pull index .filcPtr), lines_track, ih, List.idxsOf_cons,
      if_pos (by simp), List.map_cons, List.mapIdx_cons, starting_cons_self, hshift]
    rfl
  | case3 index slot type rest hne ih =>
    rw [pulls, starting_flatMap_cons, starting_of_aside hmark (isAside_pull index type), ih,
      List.idxsOf_cons, if_neg (by simpa using hne)]
    · rfl
    · exact hne
  | case4 index slot rest ih =>
    rw [pulls, ih, List.idxsOf_cons, if_neg (by simp)]

/-- A pointer is tracked by the line behind the one that pulls it. -/
theorem directly_pulls {index slot j place : Nat} {args : List Argument}
    (h : (args.idxsOf (.value .filcPtr) index)[j]? = some place) :
    [pullText place, "frame->objects[" ++ writeText (slot + j) (argumentName place)] <:+:
      (pulls index slot args).flatMap Statement.lines := by
  induction index, slot, args using pulls.induct generalizing j with
  | case1 index slot => simp at h
  | case2 index slot rest ih =>
    rw [List.idxsOf_cons, if_pos (by simp)] at h
    have hlines : (pulls index slot (.value .filcPtr :: rest)).flatMap Statement.lines =
        [pullText index, "frame->objects[" ++ writeText slot (argumentName index)] ++
          (pulls (index + 1) (slot + 1) rest).flatMap Statement.lines := by
      rw [pulls, List.flatMap_cons, List.flatMap_cons, lines_pull_filcPtr, lines_track]
      rfl
    rw [hlines]
    cases j with
    | zero =>
      obtain rfl := Option.some.inj h
      exact (List.prefix_append ..).isInfix
    | succ j =>
      have hslot : slot + (j + 1) = slot + 1 + j := by omega
      rw [hslot]
      exact (ih h).trans (List.suffix_append ..).isInfix
  | case3 index slot type rest hne ih =>
    rw [List.idxsOf_cons, if_neg (by simpa using hne)] at h
    rw [pulls, List.flatMap_cons]
    · exact (ih h).trans (List.suffix_append ..).isInfix
    · exact hne
  | case4 index slot rest ih =>
    rw [List.idxsOf_cons, if_neg (by simp)] at h
    exact ih h

/-! ### Whole thunks -/

/-- What pulls arguments tracks pointers and leaves the frame alone otherwise. -/
theorem isAside_or_track_of_mem_pulls {index slot : Nat} {args : List Argument}
    {statement : Statement} (h : statement ∈ pulls index slot args) :
    statement.IsAside ∨ ∃ slot pointer, statement = .track slot pointer := by
  induction index, slot, args using pulls.induct with
  | case1 => cases h
  | case2 index slot rest ih =>
    rcases List.mem_cons.mp h with rfl | h
    · exact .inl (isAside_pull index .filcPtr)
    · rcases List.mem_cons.mp h with rfl | h
      · exact .inr ⟨_, _, rfl⟩
      · exact ih h
  | case3 index slot type rest hne ih =>
    rw [pulls] at h
    · rcases List.mem_cons.mp h with rfl | h
      · exact .inl (isAside_pull index type)
      · exact ih h
    · exact hne
  | case4 index slot rest ih => exact ih h

/-- What the thunk does once its arguments are pulled. -/
def finish (s : Signature) : List Statement :=
  callAndStore s ++ [popFrames, giveBack (if s.throws then "result.has_exception" else "false")]

theorem isAside_finish (s : Signature) : ∀ statement ∈ finish s, statement.IsAside :=
  List.forall_mem_append.mpr ⟨isAside_callAndStore s, List.forall_mem_cons.mpr
    ⟨isAside_popFrames, List.forall_mem_singleton.mpr (isAside_giveBack _)⟩⟩

theorem starting_flatMap_eq_nil {body : List Statement}
    (h : ∀ statement ∈ body, starting mark statement.lines = []) :
    starting mark (body.flatMap Statement.lines) = [] := by
  rw [starting, List.filterMap_flatMap]
  exact List.flatMap_eq_nil_iff.mpr h

theorem texts_body (s : Signature) :
    texts (setUp (ofSignature s) ++ (ofSignature s).bodyCode) = texts (setUp (ofSignature s)) ++
      (track 0 "args" :: (pulls 0 1 s.arguments ++ finish s)).flatMap Statement.lines := by
  have hbody : (ofSignature s).body = track 0 "args" :: (pulls 0 1 s.arguments ++ finish s) := by
    simp only [ofSignature, finish, List.cons_append, List.append_assoc]
    rfl
  have htexts : ∀ body : List Statement,
      texts (body.flatMap fun statement => statement.lines.flatMap Code.line) =
        body.flatMap Statement.lines := by
    intro body
    rw [texts, List.map_flatMap]
    refine List.flatMap_congr fun statement _ => ?_
    rw [List.map_flatMap]
    exact List.flatMap_singleton' _
  rw [texts, List.map_append, bodyCode, ← texts, ← texts, htexts, hbody]

/-- After its set-up, a thunk says no more about the size of its frame. -/
theorem starting_statements_of_layout (s : Signature)
    (hmark : mark ∈ ["FILC_DEFINE_RUNTIME_ORIGIN(", "filc_object* objects["]) :
    starting mark ((track 0 "args" :: (pulls 0 1 s.arguments ++ finish s)).flatMap
      Statement.lines) = [] := by
  have htrack : ∀ slot pointer, starting mark (track slot pointer).lines = [] := by
    intro slot pointer
    rw [lines_track]
    simp only [List.mem_cons, List.not_mem_nil, or_false] at hmark
    rcases hmark with rfl | rfl
    · exact starting_cons_other (by decide) (by decide) _
    · exact starting_cons_other (by decide) (by decide) _
  have haside : ∀ statement : Statement, statement.IsAside → starting mark statement.lines = [] :=
    fun statement h => starting_of_aside (List.mem_of_mem_take (i := 2) hmark) h
  refine starting_flatMap_eq_nil (List.forall_mem_cons.mpr ⟨htrack 0 "args",
    List.forall_mem_append.mpr ⟨fun statement hstatement => ?_, fun statement hstatement =>
      haside statement (isAside_finish s statement hstatement)⟩⟩)
  rcases isAside_or_track_of_mem_pulls hstatement with h | ⟨slot, pointer, rfl⟩
  · exact haside statement h
  · exact htrack slot pointer

/-- The writes to the slots are those of the buffer and of the pointers. -/
theorem starting_statements_writes (s : Signature) :
    starting "frame->objects[" ((track 0 "args" :: (pulls 0 1 s.arguments ++ finish s)).flatMap
      Statement.lines) = ("args" :: (pointerPlaces s).map argumentName).mapIdx writeText := by
  have hfinish : starting "frame->objects[" ((finish s).flatMap Statement.lines) = [] :=
    starting_flatMap_eq_nil fun statement hstatement =>
      starting_of_aside (by decide) (isAside_finish s statement hstatement)
  rw [starting_flatMap_cons, lines_track, List.flatMap_append, starting_append, hfinish,
    starting_pulls, List.append_nil, starting_cons_self, List.mapIdx_cons]
  refine congrArg (writeText 0 "args" :: ·) (congrArg (List.mapIdx · _) ?_)
  exact funext fun j => congrArg writeText (Nat.add_comm 1 j)

theorem tracksPointers (s : Signature) :
    TracksPointers s (texts (setUp (ofSignature s) ++ (ofSignature s).bodyCode)) := by
  obtain ⟨horigin, harray, hwrites⟩ := starting_setUp (ofSignature s)
  have hsize : (ofSignature s).slots = frameSize s := rfl
  have hwritten : starting "frame->objects[" (texts (setUp (ofSignature s) ++
      (ofSignature s).bodyCode)) = ("args" :: (pointerPlaces s).map argumentName).mapIdx
        writeText := by
    rw [texts_body, starting_append, hwrites, starting_statements_writes, List.nil_append]
  refine { origin := ?origin, array := ?array, writes := hwritten, length_writes := ?length_writes,
           directly := ?directly, tracked := ?tracked }
  case origin =>
    rw [texts_body, starting_append, horigin, starting_statements_of_layout s (by decide),
      List.append_nil, hsize]
    rfl
  case array =>
    rw [texts_body, starting_append, harray, starting_statements_of_layout s (by decide),
      List.append_nil, hsize]
  case length_writes =>
    rw [hwritten, List.length_mapIdx, List.length_cons, List.length_map, pointerPlaces,
      List.length_idxsOf, frameSize, Nat.add_comm]
  case directly =>
    intro j place hplace
    have hpulls := @directly_pulls 0 1 _ _ _ hplace
    rw [Nat.add_comm 1 j] at hpulls
    rw [texts_body, List.flatMap_cons, List.flatMap_append]
    exact ((hpulls.trans (List.prefix_append ..).isInfix).trans
      (List.suffix_append ..).isInfix).trans (List.suffix_append ..).isInfix
  case tracked =>
    intro place hplace
    obtain ⟨hlt, hptr⟩ := List.getElem?_eq_some_iff.mp hplace
    have hmem : place ∈ pointerPlaces s :=
      List.mem_idxsOf_iff_exists_getElem_pos.mpr ⟨hlt, by simp [hptr]⟩
    exact List.mem_iff_getElem?.mp hmem

end Thunk

/-! ### Around the thunks -/

theorem texts_append (c d : Code) : texts (c ++ d) = texts c ++ texts d := List.map_append

theorem texts_line (text : String) : texts (Code.line text) = [text] := rfl

theorem texts_indented (c : Code) : texts (Code.indented c) = texts c := by
  rw [texts, Code.indented, List.map_map]
  rfl

theorem exists_guarded (defines : List String) (body : Code) :
    ∃ before after, guarded defines body = before ++ body ++ after ∧
      (∀ line ∈ texts before, Aside line) ∧ ∀ line ∈ texts after, Aside line := by
  have hif : Aside "#if " := by decide
  have hendif : Aside "#endif /* " := by decide
  unfold guarded
  split
  · exact ⟨[], [], by simp, nofun, nofun⟩
  · exact ⟨_, _, rfl, List.forall_mem_singleton.mpr (hif.append _),
      List.forall_mem_singleton.mpr ((hendif.append _).append _)⟩

theorem aside_functionObject (name : String) :
    ∀ line ∈ texts (functionObject name), Aside line := by
  have hobject : Aside "static filc_object " := by decide
  have hlower : Aside ".lower = " := by decide
  have hupper : Aside ".upper = (char*)" := by decide
  simp only [functionObject, texts_append, texts_indented, texts_line, List.forall_mem_append,
    List.forall_mem_singleton]
  exact ⟨⟨(hobject.append _).append _, ⟨⟨(hlower.append _).append _, (hupper.append _).append _⟩,
    by decide⟩, by decide⟩, by decide⟩

theorem aside_getter (name : String) : ∀ line ∈ texts (getter name), Aside line := by
  have hgetter : Aside "filc_ptr pizlonated_" := by decide
  have haddress : Aside "&" := by decide
  simp only [getter, Code.block, texts_append, texts_indented, texts_line, List.forall_mem_append,
    List.forall_mem_singleton]
  exact ⟨(hgetter.append _).append _, ⟨by decide, ⟨by decide, by decide⟩,
    (haddress.append _).append _, (haddress.append _).append _⟩, by decide⟩

/-- The lines around the body of a thunk leave its frame alone. -/
theorem starting_around {before body after : Code} (hmark : mark ∈ frameMarks)
    (hbefore : ∀ line ∈ texts before, Aside line) (hafter : ∀ line ∈ texts after, Aside line)
    (name : String) :
    starting mark (texts (before ++ (Code.line ("static bool native_thunk_" ++ name ++
      "(PIZLONATED_SIGNATURE)") ++ Code.block body) ++ after)) = starting mark (texts body) := by
  have hhead : Aside "static bool native_thunk_" := by decide
  have hline : ∀ line ∈ [("static bool native_thunk_" ++ name ++ "(PIZLONATED_SIGNATURE)")],
      Aside line := List.forall_mem_singleton.mpr ((hhead.append _).append _)
  have hopen : ∀ line ∈ ["\x7b"], Aside line := by decide
  have hclose : ∀ line ∈ ["\x7d"], Aside line := by decide
  simp only [Code.block, texts_append, texts_indented, texts_line, starting_append,
    starting_of_aside hmark hbefore, starting_of_aside hmark hafter,
    starting_of_aside hmark hline, starting_of_aside hmark hopen, starting_of_aside hmark hclose,
    List.nil_append, List.append_nil]

/-- The source consists of a part for each signature, in order, and each part has a thunk. Whatever
the signature is, the frame of its thunk has a slot for the buffer and one for each pointer, and
each slot is written once, in order, and as soon as the pointer has been pulled. No other line
lays out a frame or writes to one. -/
theorem frames_track_pointers (ss : List Signature) : ∃ front parts,
    source ss = Code.render (front ++ parts.flatten) ∧
    (∀ mark ∈ frameMarks, starting mark (texts front) = []) ∧
    List.Forall₂ (fun s part => ∃ before body after,
      part = before ++ (Code.line ("static bool native_thunk_" ++ s.name ++
        "(PIZLONATED_SIGNATURE)") ++ Code.block body) ++ after ∧
      (∀ mark ∈ frameMarks, starting mark (texts part) = starting mark (texts body)) ∧
      TracksPointers s (texts body)) ss parts := by
  refine ⟨Code.line banner ++ Code.line "#include \"filc_native.h\"",
    ss.map fun s => guarded s.defines (definitions s), rfl,
    fun mark hmark => starting_of_aside hmark (by decide), ?_⟩
  rw [List.forall₂_map_right_iff, List.forall₂_same]
  intro s _
  obtain ⟨before, after, hguarded, hbefore, hafter⟩ :=
    exists_guarded s.defines (definitions s)
  have hbehind : ∀ line ∈ texts (functionObject s.name ++ getter s.name ++ after), Aside line := by
    simp only [texts_append, List.forall_mem_append]
    exact ⟨⟨aside_functionObject s.name, aside_getter s.name⟩, hafter⟩
  have hpart : guarded s.defines (definitions s) = before ++
      (Code.line ("static bool native_thunk_" ++ s.name ++ "(PIZLONATED_SIGNATURE)") ++
        Code.block (Thunk.setUp (Thunk.ofSignature s) ++ (Thunk.ofSignature s).bodyCode)) ++
      (functionObject s.name ++ getter s.name ++ after) := by
    rw [hguarded]
    simp only [definitions, Thunk.code, Thunk.bodyCode, List.append_assoc]
    rfl
  refine ⟨before, _, _, hpart, fun mark hmark => ?_, Thunk.tracksPointers s⟩
  rw [hpart]
  exact starting_around hmark hbefore hbehind s.name

end CapFixture.Forwarder
