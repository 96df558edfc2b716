/-
The memory image as a flat byte store. A sequence of row operations, writes and
reads on an image answers exactly as the same sequence on a content that knows
nothing of rows, lines and copies: row operations change nothing, a write lays
its bytes over the content, a read returns what was last written.

Accesses pass the coordinates the address mapper gives their first line. They
must lie inside the geometry: the configured capacity only limits the backend,
and beyond the geometry two lines share one row and one column.
-/

import HbmSim.ImageWrite

namespace HbmSim

/-! ### Operations -/

inductive ImageOp where
  | activateRow (decoded : DecodedAddress) (cycle : Nat)
  | prechargeBank (decoded : DecodedAddress) (cycle : Nat)
  | prechargeAll (decoded : DecodedAddress) (cycle : Nat)
  | flushDirtyRowBuffers (cycle : Nat)
  | flushAllRowBuffers (cycle : Nat)
  | write (address : Nat) (data : ByteVector) (mask : Option ByteVector)
      (stamp : MemoryImage.WriteStamp)
  | read (address size : Nat)
  | readInitializedMask (address size : Nat)

/-- What an operation answers: a read its bytes and whether all of them were written. -/
inductive ImageOutput where
  | silent
  | bytes (bytes : ByteVector) (initialized : Bool)
  | mask (mask : ByteVector)

namespace MemoryImage

variable {β : Type} [MemoryBackend β]

/-- The coordinates the address mapper assigns. -/
def mapped (image : MemoryImage β) (address : Nat) : Option DecodedAddress :=
  image.spec.map fun spec => decode spec address

def apply (image : MemoryImage β) : ImageOp → Except Exception (ImageOutput × MemoryImage β)
  | .activateRow decoded cycle => do return (.silent, ← image.activateRow decoded cycle)
  | .prechargeBank decoded cycle => do return (.silent, ← image.prechargeBank decoded cycle)
  | .prechargeAll decoded cycle => do return (.silent, ← image.prechargeAll decoded cycle)
  | .flushDirtyRowBuffers cycle => do return (.silent, ← image.flushDirtyRowBuffers cycle)
  | .flushAllRowBuffers cycle => do return (.silent, ← image.flushAllRowBuffers cycle)
  | .write address data mask stamp => do
    return (.silent, ← image.write address data mask (image.mapped address) stamp)
  | .read address size => do
    let (bytes, initialized, image) ← image.read address size (image.mapped address)
    return (.bytes bytes initialized, image)
  | .readInitializedMask address size => do
    return (.mask (← image.readInitializedMask address size (image.mapped address)), image)

def run (image : MemoryImage β) :
    List ImageOp → Except Exception (List ImageOutput × MemoryImage β)
  | [] => .ok ([], image)
  | op :: rest => do
    let (output, image) ← image.apply op
    let (outputs, image) ← image.run rest
    return (output :: outputs, image)

end MemoryImage

/-! ### The flat store -/

namespace FlatStore

/-- What an operation does to a content and answers from it. -/
def apply (defaultValue : UInt8) (flat : Patch Nat UInt8) :
    ImageOp → ImageOutput × Patch Nat UInt8
  | .write address data mask _ => (.silent, (writePatch address data mask).onto flat)
  | .read address size =>
    (.bytes (contentBytes defaultValue flat address size)
      (allMasked (contentMask flat address size)), flat)
  | .readInitializedMask address size => (.mask (contentMask flat address size), flat)
  | _ => (.silent, flat)

def run (defaultValue : UInt8) (flat : Patch Nat UInt8) :
    List ImageOp → List ImageOutput × Patch Nat UInt8
  | [] => ([], flat)
  | op :: rest =>
    let (output, flat) := apply defaultValue flat op
    let (outputs, flat) := run defaultValue flat rest
    (output :: outputs, flat)

end FlatStore

/-- The access, if the operation is one, stays inside the geometry. -/
def ImageOp.InGeometry (spec : DramSpec) : ImageOp → Prop
  | .write address data _ _ => InCapacity spec address data.length
  | .read address size => InCapacity spec address size
  | .readInitializedMask address size => InCapacity spec address size
  | _ => True

/-- The write, if the operation is one, overwrites every outstanding flip it meets. -/
def ImageOp.FlipSafe {β : Type} [MemoryBackend β] (image : MemoryImage β) (spec : DramSpec) :
    ImageOp → Prop
  | .write address data mask _ => HbmSim.FlipSafe image spec address data mask
  | _ => True

/-! ### One operation -/

section Operations

variable {β : Type} {image after : MemoryImage β} {spec : DramSpec} {flat : Patch Nat UInt8}

theorem mapped_eq (valid : image.config.Valid spec) (address : Nat) :
    image.mapped address = some (decode spec address) := by
  have given : image.spec = some spec := valid.hasSpec
  unfold MemoryImage.mapped
  rw [given]
  rfl

variable [MemoryBackend β]

theorem create_given {defaultValue : UInt8} {options : StorageModelOptions}
    (created : MemoryImage.create spec defaultValue options = .ok image) :
    image.defaultValue = defaultValue ∧
      image.options.eccInjectPeriod = options.eccInjectPeriod := by
  unfold MemoryImage.create at created
  obtain ⟨_, -, created⟩ := bind_eq_ok.mp created
  obtain ⟨_, -, created⟩ := bind_eq_ok.mp created
  obtain ⟨_, -, created⟩ := bind_eq_ok.mp created
  obtain ⟨capacityBytes, -, created⟩ := bind_eq_ok.mp created
  obtain ⟨backend, -, returned⟩ := bind_eq_ok.mp created
  cases returned
  exact ⟨rfl, rfl⟩

/-- Without injection the copy a line's next access sees has fitting check bits. -/
theorem lineClean_of_no_injection {base : Nat} (holds : Holds image spec flat)
    (inside : InGeometry image.config spec base) (off : image.options.eccInjectPeriod ≤ 0) :
    LineClean image spec base := by
  intro block effective
  rcases effectiveBlock_spec holds inside effective with settled | flipped
  · exact settled.clean
  · exact absurd flipped.injecting (not_lt.mpr off)

variable [LawfulMemoryBackend β]

/-- A new image holds nothing. -/
theorem create_holds {defaultValue : UInt8} {options : StorageModelOptions}
    (created : MemoryImage.create spec defaultValue options = .ok image)
    (separating : spec.Separating) (switches : options.eccInjectPeriod ≤ 0 ∨ options.EccOn) :
    Holds image spec Patch.empty := by
  unfold MemoryImage.create at created
  obtain ⟨_, valid, created⟩ := bind_eq_ok.mp created
  obtain ⟨_, -, created⟩ := bind_eq_ok.mp created
  obtain ⟨_, -, created⟩ := bind_eq_ok.mp created
  obtain ⟨capacityBytes, -, created⟩ := bind_eq_ok.mp created
  obtain ⟨backend, made, returned⟩ := bind_eq_ok.mp created
  cases returned
  obtain ⟨-, lineSize, empty⟩ := LawfulMemoryBackend.make_ok _ _ _ made
  refine ⟨⟨rfl, validateSpec_positive valid, separating, rfl,
    switches.imp id fun on => ⟨on.1, on.2, on.3⟩⟩, lineSize, ?_, ?_, ?_⟩
  · intro bankKey entry lookup
    cases lookup
  · intro bankKey entry lookup
    cases lookup
  · intro base _ _ found loads
    rw [empty base found loads]
    exact fun _ _ => rfl

/-- One operation answers as the flat store does and keeps holding its content. -/
theorem apply_spec {op : ImageOp} {output : ImageOutput} (holds : Holds image spec flat)
    (inside : op.InGeometry spec) (safe : op.FlipSafe image spec)
    (returns : image.apply op = .ok (output, after)) :
    output = (FlatStore.apply image.defaultValue flat op).1 ∧
      Keeps image after spec (FlatStore.apply image.defaultValue flat op).2 := by
  have valid := holds.valid
  cases op with
  | activateRow decoded cycle =>
    obtain ⟨_, steps, returned⟩ := bind_eq_ok.mp returns
    cases returned
    obtain ⟨kept, config⟩ := activateRow_holds holds steps
    exact ⟨rfl, kept, config⟩
  | prechargeBank decoded cycle =>
    obtain ⟨_, steps, returned⟩ := bind_eq_ok.mp returns
    cases returned
    obtain ⟨kept, config⟩ := prechargeBank_holds holds steps
    exact ⟨rfl, kept, config⟩
  | prechargeAll decoded cycle =>
    obtain ⟨_, steps, returned⟩ := bind_eq_ok.mp returns
    cases returned
    obtain ⟨kept, config⟩ := prechargeAll_holds holds steps
    exact ⟨rfl, kept, config⟩
  | flushDirtyRowBuffers cycle =>
    obtain ⟨_, steps, returned⟩ := bind_eq_ok.mp returns
    cases returned
    obtain ⟨kept, config⟩ := flushDirtyRowBuffers_holds holds steps
    exact ⟨rfl, kept, config⟩
  | flushAllRowBuffers cycle =>
    obtain ⟨_, steps, returned⟩ := bind_eq_ok.mp returns
    cases returned
    obtain ⟨kept, config⟩ := flushAllRowBuffers_holds holds steps
    exact ⟨rfl, kept, config⟩
  | write address data mask stamp =>
    obtain ⟨_, steps, returned⟩ := bind_eq_ok.mp returns
    cases returned
    rw [mapped_eq valid] at steps
    exact ⟨rfl, write_spec holds inside safe steps⟩
  | read address size =>
    obtain ⟨⟨bytes, initialized, _⟩, steps, returned⟩ := bind_eq_ok.mp returns
    cases returned
    rw [mapped_eq valid] at steps
    obtain ⟨rfl, rfl, keeps⟩ := read_spec holds inside steps
    exact ⟨rfl, keeps⟩
  | readInitializedMask address size =>
    obtain ⟨_, steps, returned⟩ := bind_eq_ok.mp returns
    cases returned
    rw [mapped_eq valid] at steps
    rw [readInitializedMask_spec holds inside steps]
    exact ⟨rfl, holds, rfl⟩

/-- Every write of the run overwrites the outstanding flips it meets. -/
def MemoryImage.FlipSafeRun (spec : DramSpec) (image : MemoryImage β) : List ImageOp → Prop
  | [] => True
  | op :: rest => op.FlipSafe image spec ∧
      ∀ output after, image.apply op = .ok (output, after) → FlipSafeRun spec after rest

/-- A run answers as the flat store does and ends holding its content. -/
theorem run_spec {outputs : List ImageOutput} (ops : List ImageOp) (holds : Holds image spec flat)
    (inside : ∀ op ∈ ops, op.InGeometry spec) (safe : image.FlipSafeRun spec ops)
    (returns : image.run ops = .ok (outputs, after)) :
    outputs = (FlatStore.run image.defaultValue flat ops).1 ∧
      Keeps image after spec (FlatStore.run image.defaultValue flat ops).2 := by
  induction ops generalizing image flat outputs with
  | nil =>
    cases returns
    exact ⟨rfl, holds, rfl⟩
  | cons op rest inductionHypothesis =>
    obtain ⟨⟨output, middle⟩, steps, continues⟩ := bind_eq_ok.mp returns
    obtain ⟨⟨later, _⟩, runs, returned⟩ := bind_eq_ok.mp continues
    cases returned
    obtain ⟨answered, keeps⟩ := apply_spec holds (inside op List.mem_cons_self) safe.1 steps
    obtain ⟨restAnswered, restKeeps⟩ := inductionHypothesis keeps.holds
      (fun other member => inside other (List.mem_cons_of_mem op member)) (safe.2 _ _ steps) runs
    have default : middle.defaultValue = image.defaultValue :=
      congrArg ImageConfig.defaultValue keeps.config
    rw [default] at restAnswered restKeeps
    refine ⟨?_, restKeeps.holds, restKeeps.config.trans keeps.config⟩
    rw [answered, restAnswered]
    rfl

/-! ### Without error injection -/

/-- Without injection there is no flip to overwrite. -/
theorem flipSafeRun_of_no_injection (ops : List ImageOp) (holds : Holds image spec flat)
    (inside : ∀ op ∈ ops, op.InGeometry spec) (off : image.options.eccInjectPeriod ≤ 0) :
    image.FlipSafeRun spec ops := by
  induction ops generalizing image flat with
  | nil => trivial
  | cons op rest inductionHypothesis =>
    have here := inside op List.mem_cons_self
    have safe : op.FlipSafe image spec := by
      cases op with
      | write address data mask stamp =>
        intro index small
        refine Or.inl (lineClean_of_no_injection holds ⟨?_, ?_⟩ off)
        · exact Nat.sub_mod_eq_zero_of_mod_eq (Nat.mod_mod _ _).symm
        · have bounded : data.length = 0 ∨ address + data.length ≤ spec.capacityOf := here
          have below : lineBase image.lineSize (address + index) ≤ address + index :=
            Nat.sub_le _ _
          omega
      | _ => trivial
    refine ⟨safe, fun output after steps => ?_⟩
    obtain ⟨-, keeps⟩ := apply_spec holds here safe steps
    have options : after.options = image.options := congrArg ImageConfig.options keeps.config
    exact inductionHypothesis keeps.holds
      (fun other member => inside other (List.mem_cons_of_mem op member)) (options ▸ off)

/-- With error injection off, every run on a new image answers as a flat store does: reads return
the last value written to each byte or the default, and the initialized masks mark exactly the
written bytes. -/
theorem run_refines_flatStore {defaultValue : UInt8} {options : StorageModelOptions}
    {ops : List ImageOp} {outputs : List ImageOutput}
    (created : MemoryImage.create spec defaultValue options = .ok image)
    (separating : spec.Separating) (off : options.eccInjectPeriod ≤ 0)
    (inside : ∀ op ∈ ops, op.InGeometry spec) (returns : image.run ops = .ok (outputs, after)) :
    outputs = (FlatStore.run defaultValue Patch.empty ops).1 := by
  have holds := create_holds created separating (Or.inl off)
  have imageOff : image.options.eccInjectPeriod ≤ 0 := by
    rw [(create_given created).2]
    exact off
  have safe := flipSafeRun_of_no_injection ops holds inside imageOff
  rw [← (create_given created).1]
  exact (run_spec ops holds inside safe returns).1

end Operations

/-! ### A small device -/

/-- One bank with two rows of two four-byte lines. -/
def smallSpec : DramSpec where
  org := { bankGroups := 1, banksPerGroup := 1, rows := 2, columns := 2, lineSize := 4 }
  speedBinMbps := 6400
  stackHeight := 4

/-- A new image of the small device. -/
def smallImage (options : StorageModelOptions) : MemoryImage SparseMemoryBackend where
  lineSize := 4
  spec := some smallSpec
  options
  backend := { lineSize := 4, capacityBytes := options.capacityBytes }

/-- A masked write over two lines, one of them in an open row, that the row's closing keeps. -/
def smallOps : List ImageOp :=
  [.activateRow { row := 0 } 0, .write 6 [1, 2, 3, 4] (some [1, 0, 1, 1]) {},
    .activateRow { row := 1 } 1, .write 9 [5] none {}, .prechargeAll {} 2, .read 5 6,
    .readInitializedMask 5 6]

theorem run_refines_flatStore_small :
    [.silent, .silent, .silent, .silent, .silent, .bytes [0, 1, 0, 3, 5, 0] false,
      .mask [0, 0xff, 0, 0xff, 0xff, 0]] = (FlatStore.run 0 Patch.empty smallOps).1 := by
  have created : MemoryImage.create smallSpec 0 { eccShadowEnabled := false } =
      .ok (smallImage { eccShadowEnabled := false, capacityBytes := 16 }) := rfl
  have returns : ∃ after, (smallImage { eccShadowEnabled := false, capacityBytes := 16 }).run
      smallOps = .ok ([.silent, .silent, .silent, .silent, .silent,
        .bytes [0, 1, 0, 3, 5, 0] false, .mask [0, 0xff, 0, 0xff, 0xff, 0]], after) := ⟨_, rfl⟩
  obtain ⟨after, returns⟩ := returns
  refine run_refines_flatStore created (fun family => nomatch family) (le_refl 0) ?_ returns
  intro op member
  fin_cases member <;> first | trivial | exact Or.inr (by decide)

/-- A capacity of 64 bytes on the 16-byte device lets address 16 through, which shares row 0 and
column 0 with address 0: the read answers with the other line's byte from the open row. -/
theorem run_aliases_beyond_geometry :
    (do
      let image : MemoryImage SparseMemoryBackend ←
        MemoryImage.create smallSpec 0 { eccShadowEnabled := false, capacityBytes := 64 }
      let (outputs, _) ←
        image.run [.activateRow { row := 0 } 0, .write 0 [1] none {}, .read 16 1]
      return outputs) = .ok [.silent, .silent, .bytes [1] true] ∧
    (FlatStore.run 0 Patch.empty
      [.activateRow { row := 0 } 0, .write 0 [1] none {}, .read 16 1]).1 =
      [.silent, .silent, .bytes [0] false] :=
  ⟨rfl, rfl⟩

end HbmSim
