import CapFixture.Proofs.TestProgram.Machine

/-!
# How runs end

A run goes through the stores, the loads and the assertions of its test. What it does is told by
the accesses of the test alone: what the stores leave in the buffer decides every assertion.

## Main definitions

- `Machine.storeAll` — what the stores leave in the buffer
- `Machine.Outcome` — the ways in which a run can end
-/

namespace CapFixture.TestProgram.Machine

variable {width : Nat} {m : Machine width} {s start : State} {memory : Memory} {a b : Access}
  {content expected : Value} {as : List (Access × Value)}

theorem run_cons_of_ok {first : Statement} {next : State} (h : m.step s first = .ok next)
    (rest : List Statement) : m.run s (first :: rest) = m.run next rest := by
  rw [run, List.foldlM_cons, h]
  rfl

theorem run_cons_of_error {first : Statement} {failure : Failure}
    (h : m.step s first = .error failure) (rest : List Statement) :
    m.run s (first :: rest) = .error failure := by
  rw [run, List.foldlM_cons, h]
  rfl

theorem run_append_of_ok {front : List Statement} {next : State} (h : m.run s front = .ok next)
    (back : List Statement) : m.run s (front ++ back) = m.run next back := by
  rw [run] at h
  rw [run, List.foldlM_append, h]
  rfl

theorem run_append_of_error {front : List Statement} {failure : Failure}
    (h : m.run s front = .error failure) (back : List Statement) :
    m.run s (front ++ back) = .error failure := by
  rw [run] at h
  rw [run, List.foldlM_append, h]
  rfl

/-! ### Stores -/

/-- What a buffer of this content has in it after some stores. -/
def storeAll (m : Machine width) (memory : Memory) (as : List (Access × Value)) : Memory :=
  as.foldl (fun memory a => memory.write a.1.start (m.written a.1.type a.2)) memory

theorem storeAll_cons (m : Machine width) (memory : Memory) (a : Access × Value)
    (as : List (Access × Value)) :
    m.storeAll memory (a :: as) =
      m.storeAll (memory.write a.1.start (m.written a.1.type a.2)) as :=
  List.foldl_cons

theorem run_stores {fields : List Field}
    (h : ∀ f ∈ fields, (f.access s.pointer).Inside width s.size) :
    m.run s (fields.map fun f => .store f.place f.content) = .ok { s with
      memory := m.storeAll s.memory (fields.map fun f => (f.access s.pointer, f.content)) } := by
  induction fields generalizing s with
  | nil => rfl
  | cons f fields ih =>
    have hinside := h f List.mem_cons_self
    rw [List.map_cons, run_cons_of_ok (step_store hinside f.content)]
    exact ih fun other hother => h other (List.mem_cons_of_mem _ hother)

/-- Stores that do not meet the bytes of an access leave them as they are. -/
theorem bytesIn_storeAll_of_apart (hw : 0 < width) (h : ∀ b ∈ as, ¬ b.1.Meets width a) :
    a.bytesIn width (m.storeAll memory as) = a.bytesIn width memory := by
  induction as generalizing memory with
  | nil => rfl
  | cons b as ih =>
    rw [storeAll_cons, ih fun c hc => h c (List.mem_cons_of_mem _ hc)]
    apply Memory.read_write_of_apart
    rw [length_written]
    exact Access.apart_of_not_meets hw (h b List.mem_cons_self)

/-- The bytes of a store that no other store meets are those that it wrote. -/
theorem bytesIn_storeAll (hw : 0 < width) (h : as.Pairwise fun a b => ¬ a.1.Meets width b.1)
    (ha : (a, content) ∈ as) :
    a.bytesIn width (m.storeAll memory as) = m.written a.type content := by
  induction as generalizing memory with
  | nil => cases ha
  | cons b as ih =>
    obtain ⟨hb, has⟩ := List.pairwise_cons.mp h
    rw [storeAll_cons]
    rcases List.mem_cons.mp ha with rfl | ha
    · rw [bytesIn_storeAll_of_apart hw fun c hc hmeets => hb c hc hmeets.symm,
        Access.bytesIn, ← m.length_written a.type content]
      exact Memory.read_write_self
    · exact ih has ha

/-! ### Loads and assertions -/

/-- Loads fill their variables up to the first one that leaves the buffer. -/
theorem run_loads {places : List (Place × Nat)} (hindices : (places.map Prod.snd).Nodup) :
    (∃ load ∈ places, ¬ (load.1.access s.pointer).Inside width s.size ∧
      m.run s (places.map fun load => .load load.2 load.1) =
        .error (.outOfBounds (load.1.access s.pointer))) ∨
    (∃ loaded, (∀ load ∈ places, (load.1.access s.pointer).Inside width s.size ∧
        loaded load.2 = (load.1.access s.pointer).bytesIn width s.memory) ∧
      (∀ index, index ∉ places.map Prod.snd → loaded index = s.loaded index) ∧
      m.run s (places.map fun load => .load load.2 load.1) = .ok { s with loaded := loaded }) := by
  induction places generalizing s with
  | nil => exact .inr ⟨s.loaded, by simp, fun _ _ => rfl, rfl⟩
  | cons load places ih =>
    obtain ⟨hfresh, hindices⟩ := List.nodup_cons.mp hindices
    by_cases hinside : (load.1.access s.pointer).Inside width s.size
    · have hstep := run_cons_of_ok (step_load (m := m) hinside load.2)
        (places.map fun load => .load load.2 load.1)
      rcases ih (s := s.assign load.2 _) hindices with
        ⟨other, hother, hout, hrun⟩ | ⟨loaded, hall, hrest, hrun⟩
      · exact .inl ⟨other, List.mem_cons_of_mem _ hother, hout, hstep.trans hrun⟩
      · refine .inr ⟨loaded, fun other hother => ?_, fun index hindex => ?_, hstep.trans hrun⟩
        · rcases List.mem_cons.mp hother with rfl | hother
          · refine ⟨hinside, ?_⟩
            rw [hrest _ hfresh]
            exact Function.update_self ..
          · exact hall other hother
        · obtain ⟨hne, hindex⟩ := not_or.mp (mt List.mem_cons.mpr hindex)
          rw [hrest index hindex]
          exact Function.update_of_ne hne ..
    · exact .inl ⟨load, List.mem_cons_self, hinside,
        run_cons_of_error (step_load_of_not_inside hinside _) _⟩

/-- Assertions pass up to the first one that does not hold. -/
theorem run_checks (m : Machine width) (s : State) (fields : List (Field × Nat)) :
    (∃ f ∈ fields, ¬ m.Accepts f.1.content (s.loaded f.2) ∧
      m.run s (fields.map fun f => .check f.2 f.1.content) =
        .error (.assertion f.2 f.1.content)) ∨
    ((∀ f ∈ fields, m.Accepts f.1.content (s.loaded f.2)) ∧
      m.run s (fields.map fun f => .check f.2 f.1.content) = .ok s) := by
  induction fields with
  | nil => exact .inr ⟨by simp, rfl⟩
  | cons f fields ih =>
    by_cases haccepts : m.Accepts f.1.content (s.loaded f.2)
    · have hstep := run_cons_of_ok (step_check haccepts)
        (fields.map fun f => .check f.2 f.1.content)
      rcases ih with ⟨other, hother, hrejects, hrun⟩ | ⟨hall, hrun⟩
      · exact .inl ⟨other, List.mem_cons_of_mem _ hother, hrejects, hstep.trans hrun⟩
      · exact .inr ⟨List.forall_mem_cons.mpr ⟨haccepts, hall⟩, hstep.trans hrun⟩
    · exact .inl ⟨f, List.mem_cons_self, haccepts,
        run_cons_of_error (step_check_of_not_accepts haccepts) _⟩

/-! ### Whole tests -/

/-- What the stores of a test leave in the buffer, if it starts in this state. -/
def filled (m : Machine width) (start : State) (test : List Statement) : Memory :=
  m.storeAll start.memory (writes test)

theorem bytesIn_filled (m : Machine width) (start : State) {test : List Statement}
    (hw : 0 < width) (h : (stores test).Pairwise fun a b => ¬ a.Meets width b)
    (ha : (a, content) ∈ writes test) :
    a.bytesIn width (m.filled start test) = m.written a.type content :=
  bytesIn_storeAll hw (List.pairwise_map.mp h) ha

/-- How the run of a test ends that stores inside of the buffer. -/
inductive Outcome (m : Machine width) (start : State) (test : List Statement) :
    Except Failure State → Prop
  | outOfBounds {load : Access × Nat} (hload : load ∈ loads test)
      (hout : ¬ load.1.Inside width (allocated test)) :
      Outcome m start test (.error (.outOfBounds load.1))
  | rejected {load : Access × Nat} {expected : Value}
      (hinside : ∀ load ∈ loads test, load.1.Inside width (allocated test))
      (hload : load ∈ loads test) (hcheck : (load.2, expected) ∈ checks test)
      (hrejects : ¬ m.Accepts expected (load.1.bytesIn width (m.filled start test))) :
      Outcome m start test (.error (.assertion load.2 expected))
  | passed {final : State}
      (hinside : ∀ load ∈ loads test, load.1.Inside width (allocated test))
      (haccepts : ∀ load ∈ loads test, ∀ expected, (load.2, expected) ∈ checks test →
        m.Accepts expected (load.1.bytesIn width (m.filled start test)))
      (hloaded : ∀ load ∈ loads test,
        final.loaded load.2 = load.1.bytesIn width (m.filled start test)) :
      Outcome m start test (.ok final)

/-- After the allocation, the stores and the shift, the loads and the assertions are left. -/
theorem run_body (m : Machine width) (start : State) {s : Scenario}
    (h : ∀ a ∈ stores s.body, a.Inside width (allocated s.body)) :
    m.run start s.body =
      m.run ⟨s.written.total, m.filled start s.body, s.displacement, start.loaded⟩
        ((s.read.fields.map Field.place).zipIdx.map (fun load => .load load.2 load.1) ++
          s.read.fields.zipIdx.map fun f => .check f.2 f.1.content) := by
  have hstores : ∀ f ∈ s.written.fields, (f.access 0).Inside width s.written.total := by
    intro f hf
    exact h _ (Scenario.mem_stores_body.mpr ⟨f, hf, rfl⟩)
  rw [filled, Scenario.writes_body, Scenario.body, run_cons_of_ok rfl,
    run_append_of_ok (run_stores hstores), run_cons_of_ok rfl]
  simp only [Int.zero_add]

/-- Every run of a scenario ends in one of these ways. -/
theorem outcome_run (m : Machine width) (start : State) {s : Scenario}
    (h : ∀ a ∈ stores s.body, a.Inside width (allocated s.body)) :
    m.Outcome start s.body (m.run start s.body) := by
  let places := (s.read.fields.map Field.place).zipIdx
  have hloads : loads s.body = places.map fun load => (load.1.access s.displacement, load.2) := by
    simp [places, List.zipIdx_map, Function.comp_def, Field.access]
  have hindices : (places.map Prod.snd).Nodup := by
    rw [List.zipIdx_map_snd]
    exact List.nodup_range'
  rw [m.run_body start h]
  rcases run_loads (m := m) hindices with ⟨load, hload, hout, hrun⟩ | ⟨loaded, hall, -, hrun⟩
  · rw [run_append_of_error hrun]
    have hmem : (load.1.access s.displacement, load.2) ∈ loads s.body := by
      rw [hloads]
      exact List.mem_map_of_mem hload
    exact .outOfBounds hmem hout
  · rw [run_append_of_ok hrun]
    have hinside : ∀ load ∈ loads s.body, load.1.Inside width (allocated s.body) := by
      rw [hloads, List.forall_mem_map]
      exact fun load hload => (hall load hload).1
    have hvalues : ∀ load ∈ loads s.body,
        loaded load.2 = load.1.bytesIn width (m.filled start s.body) := by
      rw [hloads, List.forall_mem_map]
      exact fun load hload => (hall load hload).2
    rcases run_checks m _ s.read.fields.zipIdx with ⟨f, hf, hrejects, hrun⟩ | ⟨haccepts, hrun⟩
    · -- the variable of the assertion has been loaded
      have hindex := List.mem_zipIdx_iff_getElem?.mp hf
      have hload : (f.1.access s.displacement, f.2) ∈ loads s.body :=
        Scenario.mem_loads_body.mpr ⟨f.1, hindex, rfl⟩
      have hcheck : (f.2, f.1.content) ∈ checks s.body :=
        Scenario.mem_checks_body.mpr ⟨f.1, hindex, rfl⟩
      rw [hrun]
      have hbytes : ¬ m.Accepts f.1.content
          ((f.1.access s.displacement).bytesIn width (m.filled start s.body)) := by
        rw [← hvalues _ hload]
        exact hrejects
      exact .rejected hinside hload hcheck hbytes
    · rw [hrun]
      refine .passed hinside ?_ hvalues
      intro load hload expected hcheck
      obtain ⟨f, hindex, rfl⟩ := Scenario.mem_checks_body.mp hcheck
      rw [← hvalues load hload]
      exact haccepts (f, load.2) (List.mem_zipIdx_iff_getElem?.mpr hindex)

section

variable {v : Variant} {m : Machine v.capabilityWidth} {s : Scenario} (hv : v.Valid)
  (hw : s.written.Solid v)

include hv hw

/-- What has been stored is accepted where it is loaded. -/
theorem accepts_of_mem_stores (m : Machine v.capabilityWidth) (start : State)
    (hr : s.read.Accessible v) {load : Access × Nat} (hload : load ∈ loads s.body)
    (hcheck : (load.2, expected) ∈ checks s.body) (hstored : load.1 ∈ stores s.body) :
    m.Accepts expected (load.1.bytesIn v.capabilityWidth (m.filled start s.body)) := by
  have hwrite :=
    Scenario.mem_writes_of_mem_stores (hw.accessible hv) hr hload hcheck hstored
  rw [m.bytesIn_filled start hv.capability_pos (Scenario.pairwise_stores hv hw) hwrite]
  exact m.accepts_written hv.capability_pos hv.capability_le
    (Scenario.content_eq_hello_iff (hw.accessible hv) hwrite)

/-- Every failure of a scenario is about a load of what has not been stored. -/
theorem exists_unwritten_of_run_eq_error (hr : s.read.Accessible v) {failure : Failure}
    (hrun : m.run start s.body = .error failure) :
    ∃ load ∈ loads s.body, load.1 ∈ unwritten s.body ∧ failure.Concerns load := by
  have hinside := Scenario.inside_of_mem_stores hv hw
  have houtcome := m.outcome_run start hinside
  rw [hrun] at houtcome
  cases houtcome with
  | outOfBounds hload hout =>
    refine ⟨_, hload, mem_unwritten.mpr ⟨List.mem_map_of_mem hload, ?_⟩, rfl⟩
    intro hstored
    exact hout (hinside _ hstored)
  | rejected _ hload hcheck hrejects =>
    refine ⟨_, hload, mem_unwritten.mpr ⟨List.mem_map_of_mem hload, ?_⟩, rfl,
      Scenario.expected_eq_hello_iff hr hload hcheck⟩
    intro hstored
    exact hrejects (accepts_of_mem_stores hv hw m start hr hload hcheck hstored)

/-- A load that leaves the buffer ends every run, as no assertion comes before the loads. -/
theorem exists_run_eq_outOfBounds (m : Machine v.capabilityWidth) (start : State)
    (hout : ∃ load ∈ loads s.body, ¬ load.1.Inside v.capabilityWidth (allocated s.body)) :
    ∃ load ∈ loads s.body, m.run start s.body = .error (.outOfBounds load.1) := by
  obtain ⟨load, hload, hout⟩ := hout
  have houtcome := m.outcome_run start (Scenario.inside_of_mem_stores hv hw)
  generalize m.run start s.body = result at houtcome ⊢
  cases houtcome with
  | outOfBounds hfirst _ => exact ⟨_, hfirst, rfl⟩
  | rejected hinside _ _ _ => exact absurd (hinside load hload) hout
  | passed hinside _ _ => exact absurd (hinside load hload) hout

theorem exists_not_inside_of_run_eq_outOfBounds {access : Access}
    (hrun : m.run start s.body = .error (.outOfBounds access)) :
    ∃ load ∈ loads s.body, ¬ load.1.Inside v.capabilityWidth (allocated s.body) := by
  have houtcome := m.outcome_run start (Scenario.inside_of_mem_stores hv hw)
  rw [hrun] at houtcome
  cases houtcome with
  | outOfBounds hload hout => exact ⟨_, hload, hout⟩

/-- A variable that its assertion does not accept lets every run fail. -/
theorem exists_run_eq_error (m : Machine v.capabilityWidth) (start : State) {load : Access × Nat}
    (hload : load ∈ loads s.body) (hcheck : (load.2, expected) ∈ checks s.body)
    (hrejects : ¬ m.Accepts expected
      (load.1.bytesIn v.capabilityWidth (m.filled start s.body))) :
    ∃ failure, m.run start s.body = .error failure := by
  have houtcome := m.outcome_run start (Scenario.inside_of_mem_stores hv hw)
  generalize m.run start s.body = result at houtcome ⊢
  cases houtcome with
  | outOfBounds => exact ⟨_, rfl⟩
  | rejected => exact ⟨_, rfl⟩
  | passed _ haccepts _ => exact absurd (haccepts load hload expected hcheck) hrejects

end

/-! ### Integers and capabilities over one another -/

section

variable {test : List Statement} {c : Access}

theorem bytesIn_eq_cons (hw : 0 < width) (memory : Memory) (a : Access) :
    ∃ rest, a.bytesIn width memory = memory a.start :: rest := by
  obtain ⟨count, hcount⟩ := Nat.exists_eq_add_one_of_ne_zero (Nat.ne_of_gt (a.type.bytes_pos hw))
  rw [Access.bytesIn, hcount, Memory.read_succ]
  exact ⟨_, rfl⟩

/-- An integer that starts in a stored capability does not pass as the fill byte. -/
theorem not_accepts_int (m : Machine width) (start : State) (hw : 0 < width) (hle : width ≤ 16)
    (h : (stores test).Pairwise fun a b => ¬ a.Meets width b) (hc : (c, .hello) ∈ writes test)
    (hptr : c.type = .charPtr) (hstart : c.Covers width a.start) :
    ¬ m.Accepts .value (a.bytesIn width (m.filled start test)) := by
  have hstored : c.bytesIn width (m.filled start test) = m.hello := by
    rw [m.bytesIn_filled start hw h hc, hptr, written_hello]
  have hbyte : m.filled start test a.start ∈ m.hello :=
    hstored ▸ Memory.mem_read hstart.1 hstart.2
  obtain ⟨rest, hrest⟩ := bytesIn_eq_cons hw (m.filled start test) a
  rw [hrest]
  intro hvalue
  have hvalue : signed (m.filled start test a.start :: rest) = m.value := hvalue
  have hlow := signed_cons_emod (m.filled start test a.start) rest
  have hsmall := m.value_le
  apply m.toNat_ne_value hbyte
  rw [hvalue] at hlow
  omega

/-- A capability over the start of a stored integer does not pass as `hello`. -/
theorem not_accepts_ptr (start : State) (hw : 0 < width) (hle : width ≤ 16) (hm : m.Faithful)
    (h : (stores test).Pairwise fun a b => ¬ a.Meets width b) (ha : (a, .value) ∈ writes test)
    (hstart : c.Covers width a.start) :
    ¬ m.Accepts .hello (c.bytesIn width (m.filled start test)) := by
  intro htext
  have hhello := hm _ htext
  have hbyte : m.filled start test a.start ∈ m.hello :=
    hhello ▸ Memory.mem_read hstart.1 hstart.2
  have hstored := m.bytesIn_filled start hw h ha
  obtain ⟨rest, hrest⟩ := bytesIn_eq_cons hw (m.filled start test) a
  obtain ⟨count, hcount⟩ := Nat.exists_eq_add_one_of_ne_zero (Nat.ne_of_gt (a.type.bytes_pos hw))
  rw [hrest, written_value, hcount, bytesOf] at hstored
  have hsmall := m.value_le
  apply m.toNat_ne_value hbyte
  rw [(List.cons.inj hstored).1, UInt8.toNat_ofNat']
  omega

end

end CapFixture.TestProgram.Machine
