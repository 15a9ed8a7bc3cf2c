import RocprofTool.Version1.Publishing

/-!
# The sizes of a dispatch

`set_kernel_properties` multiplies the three sizes of the grid, and the three sizes of the work
group, and aborts when a product does not fit into 32 bits.  The products are those of C: the sizes
of the grid are multiplied as `uint32_t`, so that the product has wrapped before it is widened to
64 bits and the test never fails (`checkedSize_gridSize`); the sizes of a work group are multiplied
as `int`, where a product that does not fit is not defined.

`Sized` says what the sizes are to be, and `sized_setKernelProperties_iff` for which dispatches they
are that.
-/

set_option autoImplicit false

open Fallible

namespace Version1

/-- The number of work items in the grid. -/
def Packet.gridItems (packet : Packet) : ℕ :=
  packet.gridSizeX.toNat * packet.gridSizeY.toNat * packet.gridSizeZ.toNat

/-- The number of work items in a work group. -/
def Packet.workgroupItems (packet : Packet) : ℕ :=
  packet.workgroupSizeX.toNat * packet.workgroupSizeY.toNat * packet.workgroupSizeZ.toNat

/-- The sizes in an entry are exact, or there is no entry because of an `abort`, and there is this
`abort` when one of them is more than `UINT32_MAX`. -/
structure Sized (packet : Packet) (result : Except Fault ContextEntry) : Prop where
  exact : result = .error .abort ∨ ∃ entry, result = .ok entry
    ∧ entry.kernelProperties.gridSize.toNat = packet.gridItems
    ∧ entry.kernelProperties.workgroupSize.toNat = packet.workgroupItems
  rejected : uint32Max.toNat < packet.gridItems ∨ uint32Max.toNat < packet.workgroupItems →
    result = .error .abort

/-- The products can be taken in the types that C takes them in. -/
structure Fits (packet : Packet) : Prop where
  grid : packet.gridItems ≤ uint32Max.toNat
  plane : packet.workgroupSizeX.toNat * packet.workgroupSizeY.toNat < 2 ^ 31
  workgroup : packet.workgroupItems < 2 ^ 31

/-- There is a kernel name to keep: a symbol, or the name that comes with the code. -/
def HasName (tool : Tool) (callbackData : CallbackData) : Prop :=
  match callbackData.kernelCode with
  | none => (tool.symbols callbackData.packet.kernelObject).isSome = true
  | some _ => callbackData.kernelName.isSome = true

/-- `AcquireKernelNameRef` does not find the kernel. -/
def UnknownSymbol (tool : Tool) (callbackData : CallbackData) : Prop :=
  callbackData.kernelCode = none ∧ tool.symbols callbackData.packet.kernelObject = none

/-! ## The products -/

/-- The test of the product of the grid is made on a number of 32 bits. -/
theorem checkedSize_gridSize (product : UInt32) : checkedSize product.toUInt64 = .ok product := by
  have hle : product.toUInt64 ≤ uint32Max.toUInt64 := by
    rw [UInt64.le_iff_toNat_le, UInt32.toNat_toUInt64]
    exact Nat.le_of_lt_succ product.toNat_lt
  rw [checkedSize, if_neg (UInt64.not_lt.mpr hle), UInt32.toUInt32_toUInt64]

theorem toNat_gridSize (packet : Packet) :
    (packet.gridSizeX * packet.gridSizeY * packet.gridSizeZ).toNat = packet.gridItems % 2 ^ 32 := by
  rw [UInt32.toNat_mul, UInt32.toNat_mul, Nat.mod_mul_mod, Packet.gridItems]

/-- The product of a grid is exact when it fits into 32 bits. -/
theorem toNat_gridSize_eq_iff {packet : Packet} :
    (packet.gridSizeX * packet.gridSizeY * packet.gridSizeZ).toNat = packet.gridItems
      ↔ packet.gridItems ≤ uint32Max.toNat := by
  rw [toNat_gridSize, Nat.mod_eq_iff_lt (by decide)]
  exact Nat.lt_succ_iff

theorem checkedSize_ofNat {n : ℕ} (h : n < 2 ^ 31) :
    checkedSize (UInt64.ofNat n) = .ok (UInt32.ofNat n) := by
  have hle : UInt64.ofNat n ≤ uint32Max.toUInt64 := by
    rw [UInt64.le_iff_toNat_le, UInt64.toNat_ofNat_of_lt' (h.trans (by decide))]
    exact (h.trans (by decide)).le
  rw [checkedSize, if_neg (UInt64.not_lt.mpr hle), UInt64.toUInt32_ofNat']

theorem mulInt_ok {a b : ℕ} (h : a * b < 2 ^ 31) : mulInt a b = .ok (a * b) := if_pos h

theorem mulInt_undefined {a b : ℕ} (h : ¬ a * b < 2 ^ 31) : mulInt a b = .error .undefined :=
  if_neg h

/-! ## The entry -/

section Entry

variable {m : Machine} {callbackData : CallbackData} {entry : ContextEntry} {s t : Tool}
  {p : ContextEntry × KernelCode}

/-- The sizes that are stored, with the name kept. -/
theorem exec_setKernelProperties_ok
    (hname : exec (setKernelName m callbackData { entry with data := callbackData }) s
      = (.ok p, t))
    (hplane : callbackData.packet.workgroupSizeX.toNat * callbackData.packet.workgroupSizeY.toNat
      < 2 ^ 31) (hworkgroup : callbackData.packet.workgroupItems < 2 ^ 31) :
    ∃ entry', (exec (setKernelProperties m callbackData entry) s).1 = .ok entry'
      ∧ entry'.kernelProperties.gridSize = callbackData.packet.gridSizeX
        * callbackData.packet.gridSizeY * callbackData.packet.gridSizeZ
      ∧ entry'.kernelProperties.workgroupSize
        = UInt32.ofNat callbackData.packet.workgroupItems := by
  have hsize : checkedSize (UInt64.ofNat (callbackData.packet.workgroupSizeX.toNat
      * callbackData.packet.workgroupSizeY.toNat * callbackData.packet.workgroupSizeZ.toNat))
      = .ok (UInt32.ofNat callbackData.packet.workgroupItems) := checkedSize_ofNat hworkgroup
  rw [setKernelProperties, exec_bind_ok hname, exec_lift_bind_ok (checkedSize_gridSize _),
    exec_lift_bind_ok (mulInt_ok hplane), exec_lift_bind_ok (mulInt_ok hworkgroup),
    exec_lift_bind_ok hsize]
  exact ⟨_, rfl, rfl, rfl⟩

/-- A work group whose sizes are not defined, with the name kept. -/
theorem exec_setKernelProperties_undefined
    (hname : exec (setKernelName m callbackData { entry with data := callbackData }) s
      = (.ok p, t))
    (h : ¬ (callbackData.packet.workgroupSizeX.toNat * callbackData.packet.workgroupSizeY.toNat
      < 2 ^ 31 ∧ callbackData.packet.workgroupItems < 2 ^ 31)) :
    (exec (setKernelProperties m callbackData entry) s).1 = .error .undefined := by
  rw [setKernelProperties, exec_bind_ok hname, exec_lift_bind_ok (checkedSize_gridSize _)]
  by_cases hplane : callbackData.packet.workgroupSizeX.toNat
      * callbackData.packet.workgroupSizeY.toNat < 2 ^ 31
  · have hworkgroup := mulInt_undefined (not_and.mp h hplane)
    rw [exec_lift_bind_ok (mulInt_ok hplane)]
    exact congrArg Prod.fst (exec_lift_bind_error hworkgroup t)
  · exact congrArg Prod.fst (exec_lift_bind_error (mulInt_undefined hplane) t)

/-- With the name kept, the sizes are what they are to be if the products fit. -/
theorem sized_iff_fits
    (hname : exec (setKernelName m callbackData { entry with data := callbackData }) s
      = (.ok p, t)) :
    Sized callbackData.packet (exec (setKernelProperties m callbackData entry) s).1
      ↔ Fits callbackData.packet := by
  by_cases hints : callbackData.packet.workgroupSizeX.toNat
      * callbackData.packet.workgroupSizeY.toNat < 2 ^ 31
      ∧ callbackData.packet.workgroupItems < 2 ^ 31
  · obtain ⟨entry', hresult, hgrid, hworkgroup⟩ :=
      @exec_setKernelProperties_ok m callbackData entry s t p hname hints.1 hints.2
    rw [hresult]
    have hsmall : callbackData.packet.workgroupItems < 2 ^ 32 := hints.2.trans (by decide)
    constructor
    · rintro ⟨hexact, -⟩
      obtain hno | ⟨_, heq, hstored, -⟩ := hexact
      · cases hno
      · cases heq
        rw [hgrid, toNat_gridSize_eq_iff] at hstored
        exact ⟨hstored, hints.1, hints.2⟩
    · rintro ⟨hfits, -, -⟩
      refine ⟨.inr ⟨entry', rfl, ?_, ?_⟩, ?_⟩
      · rw [hgrid, toNat_gridSize_eq_iff]
        exact hfits
      · rw [hworkgroup, UInt32.toNat_ofNat_of_lt' hsmall]
      · rintro (hlarge | hlarge)
        · exact absurd hfits (Nat.not_le.mpr hlarge)
        · exact absurd (Nat.le_of_lt_succ hsmall) (Nat.not_le.mpr hlarge)
  · rw [@exec_setKernelProperties_undefined m callbackData entry s t p hname hints]
    constructor
    · rintro ⟨hno | ⟨_, hno, -⟩, -⟩ <;> cases hno
    · rintro ⟨-, hplane, hworkgroup⟩
      exact absurd ⟨hplane, hworkgroup⟩ hints

/-- The ways through the name part. -/
theorem exec_setKernelName_cases (m : Machine) (callbackData : CallbackData) (entry : ContextEntry)
    (s : Tool) :
    UnknownSymbol s callbackData ∧ exec (setKernelName m callbackData entry) s = (.error .abort, s)
    ∨ HasName s callbackData ∧ ¬ UnknownSymbol s callbackData
      ∧ (∃ p t, exec (setKernelName m callbackData entry) s = (.ok p, t))
    ∨ ¬ UnknownSymbol s callbackData ∧ ¬ HasName s callbackData
      ∧ exec (setKernelName m callbackData entry) s = (.error .undefined, s) := by
  cases hcode : callbackData.kernelCode with
  | none =>
    cases hsymbol : s.symbols callbackData.packet.kernelObject with
    | none =>
      have hacquire : exec (acquireKernelNameRef callbackData.packet.kernelObject) s
          = (.error .abort, s) := by
        rw [acquireKernelNameRef, exec_bind_ok (exec_get s), hsymbol]
        rfl
      refine .inl ⟨⟨hcode, hsymbol⟩, ?_⟩
      rw [setKernelName, hcode]
      exact exec_bind_error hacquire
    | some symbol =>
      refine .inr (.inl ⟨?_, ?_, ?_⟩)
      · rw [HasName, hcode]
        exact Option.isSome_iff_exists.mpr ⟨symbol, hsymbol⟩
      · rintro ⟨-, hno⟩
        rw [hsymbol] at hno
        cases hno
      · have hacquire : ∃ t, exec (acquireKernelNameRef callbackData.packet.kernelObject) s
            = (.ok callbackData.packet.kernelObject, t) := by
          rw [acquireKernelNameRef, exec_bind_ok (exec_get s), hsymbol]
          exact ⟨_, rfl⟩
        obtain ⟨t, hacquire⟩ := hacquire
        rw [setKernelName, hcode]
        exact ⟨_, t, exec_bind_ok hacquire⟩
  | some code =>
    have hknown : ¬ UnknownSymbol s callbackData := by
      rintro ⟨hno, -⟩
      rw [hcode] at hno
      cases hno
    cases hname : callbackData.kernelName with
    | none =>
      refine .inr (.inr ⟨hknown, ?_, ?_⟩)
      · rw [HasName, hcode, hname]
        exact Bool.false_ne_true
      · rw [setKernelName, hcode, hname]
        rfl
    | some name =>
      refine .inr (.inl ⟨?_, hknown, ?_⟩)
      · rw [HasName, hcode, hname]
        rfl
      · rw [setKernelName, hcode, hname]
        exact ⟨_, _, rfl⟩

end Entry

/-- **For which dispatches the sizes are exact or rejected**: there is no symbol to be found, so
that nothing is stored, or there is a name and the products can be taken. -/
theorem sized_setKernelProperties_iff (m : Machine) (callbackData : CallbackData)
    (entry : ContextEntry) (s : Tool) :
    Sized callbackData.packet (exec (setKernelProperties m callbackData entry) s).1
      ↔ UnknownSymbol s callbackData ∨ HasName s callbackData ∧ Fits callbackData.packet := by
  rcases exec_setKernelName_cases m callbackData { entry with data := callbackData } s with
    ⟨hunknown, hexec⟩ | ⟨hhas, hknown, p, t, hexec⟩ | ⟨hknown, hhas, hexec⟩
  · rw [setKernelProperties, exec_bind_error hexec]
    exact iff_of_true ⟨.inl rfl, fun _ ↦ rfl⟩ (.inl hunknown)
  · rw [sized_iff_fits hexec, or_iff_right hknown, and_iff_right hhas]
  · rw [setKernelProperties, exec_bind_error hexec, or_iff_right hknown]
    refine iff_of_false ?_ fun h ↦ hhas h.1
    rintro ⟨hno | ⟨_, hno, -⟩, -⟩ <;> cases hno

/-- The dispatch of a grid of `65536` by `65536` work items. -/
def squareGrid : CallbackData :=
  { axpy true with
    packet := { (axpy true).packet with gridSizeX := 65536, gridSizeY := 65536 } }

/-- **Its size is stored as zero**, and nothing aborts. -/
theorem squareGrid_not_sized :
    HasName {} squareGrid ∧ squareGrid.packet.gridItems = 2 ^ 32 ∧
      (exec (setKernelProperties oneCounter squareGrid {}) {}).1.toOption.map
        (fun entry ↦ entry.kernelProperties.gridSize) = some 0 ∧
      ¬ Sized squareGrid.packet (exec (setKernelProperties oneCounter squareGrid {}) {}).1 := by
  refine ⟨rfl, by decide, by decide +kernel, fun h ↦ ?_⟩
  have hstored : ∃ entry, (exec (setKernelProperties oneCounter squareGrid {}) {}).1 = .ok entry :=
    ⟨_, rfl⟩
  obtain ⟨entry, hentry⟩ := hstored
  have habort := h.rejected (.inl (by decide))
  rw [hentry] at habort
  cases habort

end Version1
