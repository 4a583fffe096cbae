import IndirectBranch.Elf.Image
import IndirectBranch.Proofs.ObjectFile

/-! Linked executables, written and read back. `executableFile` writes a file header, two program
headers, instructions and data; whatever part of it follows the headers, the parser answers with the
image, with the segment whose bytes are cut off, or with the segment that leaves the address
space. -/
namespace IndirectBranch

def wordsBytes (words : List UInt32) : Bytes := words.flatMap fun w => numberBytes 4 w.toNat

@[simp] theorem length_wordsBytes (words : List UInt32) :
    (wordsBytes words).length = 4 * words.length := by
  induction words with
  | nil => rfl
  | cons w words ih =>
    simp only [wordsBytes, List.flatMap_cons, List.length_append, length_numberBytes] at ih ⊢
    simp only [ih, List.length_cons]
    omega

namespace Elf

def packed (fields : List (Nat × Nat)) : Bytes :=
  fields.flatMap fun (width, n) => numberBytes width n

/-- Header of an executable with two program headers right after it and no sections. -/
def executableHeader (entry : UInt64) : Bytes :=
  [0x7F, 0x45, 0x4C, 0x46, 2, 1, 1, 0, 0, 0, 0, 0, 0, 0, 0, 0] ++
    packed [(2, 2), (2, 183), (4, 1), (8, entry.toNat), (8, 64), (8, 0), (4, 0), (2, 64), (2, 56),
      (2, 2), (2, 64), (2, 0), (2, 0)]

def loadHeader (flags offset : Nat) (address : UInt64) (size : Nat) : Bytes :=
  packed [(4, 1), (4, flags), (8, offset), (8, address.toNat), (8, address.toNat), (8, size),
    (8, size), (8, 4)]

/-- The headers of an executable whose two segments have the given addresses and sizes. -/
def executableHeaders (textAddress : UInt64) (textSize : Nat) (dataAddress : UInt64)
    (dataSize : Nat) : Bytes :=
  executableHeader textAddress ++ loadHeader 5 176 textAddress textSize ++
    loadHeader 6 (176 + textSize) dataAddress dataSize

/-- A linked executable: instructions to read and execute, then data to read and write. -/
def executableFile (textAddress : UInt64) (code : List UInt32) (dataAddress : UInt64)
    (data : List UInt32) : Bytes :=
  executableHeaders textAddress (4 * code.length) dataAddress (4 * data.length) ++
    (wordsBytes code ++ wordsBytes data)

@[simp] theorem length_executableHeaders (textAddress : UInt64) (textSize : Nat)
    (dataAddress : UInt64) (dataSize : Nat) :
    (executableHeaders textAddress textSize dataAddress dataSize).length = 176 := by
  simp [executableHeaders, executableHeader, loadHeader, packed]

@[simp] theorem length_executableFile (textAddress : UInt64) (code : List UInt32)
    (dataAddress : UInt64) (data : List UInt32) :
    (executableFile textAddress code dataAddress data).length =
      176 + (4 * code.length + 4 * data.length) := by
  simp [executableFile]

theorem records_recordBytes {widths : List Nat} {rows : List (List Nat)} (rest : Bytes)
    (h : ∀ row ∈ rows, List.Forall₂ (fun width n => n < 256 ^ width) widths row) :
    records encoding64 widths rows.length (rows.flatMap (recordBytes widths) ++ rest) =
      .ok rows := by
  induction rows with
  | nil => rfl
  | cons row rows ih =>
    obtain ⟨hrow, hrows⟩ := List.forall_mem_cons.mp h
    simp only [List.length_cons, records, List.flatMap_cons, List.append_assoc,
      fields_recordBytes _ hrow, bind, Except.bind, ih hrows]
    rfl

def executableFields : Header :=
  { encoding := encoding64, type := 2, machine := Header.aarch64, programOffset := 64
    sectionOffset := 0, programCount := 2, sectionCount := 0, namesIndex := 0 }

theorem Header.parse_executableHeader (entry : UInt64) (rest : Bytes) :
    Header.parse (executableHeader entry ++ rest) = .ok executableFields := by
  let values := [2, 183, 1, entry.toNat, 64, 0, 0, 64, 56, 2, 64, 0, 0]
  have hfit : List.Forall₂ (fun width n => n < 256 ^ width) (Header.widths encoding64) values := by
    simpa [values, Header.widths, encoding64, Encoding.wordWidth] using entry.toNat_lt
  have hfields := fields_recordBytes rest hfit
  have hrest : (executableHeader entry ++ rest).drop 16 =
      recordBytes (Header.widths encoding64) values ++ rest := rfl
  have hident : Header.identify ((executableHeader entry ++ rest).take 16) = .ok encoding64 := rfl
  have hlength : ((executableHeader entry ++ rest).take 16).length = 16 := rfl
  simp only [Header.parse, hident, hlength, hrest, bind, Except.bind, hfields]
  rfl

def loadFields (flags offset : Nat) (address : UInt64) (size : Nat) : ProgramHeader :=
  { type := ProgramHeader.load, flags, offset := UInt64.ofNat offset, address
    fileSize := UInt64.ofNat size, memorySize := UInt64.ofNat size }

section Headers

variable {textAddress dataAddress : UInt64} {textSize dataSize : Nat}

/-- The sizes and the offset of the data can be written into the headers. -/
structure SizesFit (textSize dataSize : Nat) : Prop where
  text : 176 + textSize < UInt64.size
  data : dataSize < UInt64.size

def loadRow (flags offset : Nat) (address : UInt64) (size : Nat) : List Nat :=
  [ProgramHeader.load, flags, offset, address.toNat, address.toNat, size, size, 4]

theorem loadRow_fits {flags offset size : Nat} (address : UInt64) (hflags : flags < 256)
    (hoffset : offset < UInt64.size) (hsize : size < UInt64.size) :
    List.Forall₂ (fun width n => n < 256 ^ width) (ProgramHeader.widths encoding64)
      (loadRow flags offset address size) := by
  have haddress := address.toNat_lt
  simp only [UInt64.size] at hoffset hsize
  simp only [loadRow, ProgramHeader.widths, encoding64, ProgramHeader.load, ↓reduceIte,
    List.forall₂_cons, List.forall₂_nil_left_iff, and_true]
  omega

theorem ProgramHeader.parseTable_executableHeaders (h : SizesFit textSize dataSize) (body : Bytes) :
    ProgramHeader.parseTable
        (executableHeaders textAddress textSize dataAddress dataSize ++ body) executableFields =
      .ok [loadFields 5 176 textAddress textSize,
        loadFields 6 (176 + textSize) dataAddress dataSize] := by
  let rows := [loadRow 5 176 textAddress textSize, loadRow 6 (176 + textSize) dataAddress dataSize]
  have hfit : ∀ row ∈ rows, List.Forall₂ (fun width n => n < 256 ^ width)
      (ProgramHeader.widths encoding64) row := by
    have htext : textSize < UInt64.size := Nat.lt_of_le_of_lt (Nat.le_add_left _ _) h.text
    simp only [rows, List.forall_mem_cons, List.not_mem_nil, false_implies, implies_true, and_true]
    exact ⟨loadRow_fits _ (by decide) (by decide) htext, loadRow_fits _ (by decide) h.text h.data⟩
  have hcount : ¬ 2 > (executableHeaders textAddress textSize dataAddress dataSize ++
      body).length / ProgramHeader.size encoding64 := by
    have hsize : ProgramHeader.size encoding64 = 56 := rfl
    rw [List.length_append, length_executableHeaders, hsize]
    omega
  have hopen : openAt (executableHeaders textAddress textSize dataAddress dataSize ++ body) 64 =
      .ok (rows.flatMap (recordBytes (ProgramHeader.widths encoding64)) ++ body) := by
    rw [openAt, if_pos (by rw [List.length_append, length_executableHeaders]; omega)]
    rfl
  have hrows := records_recordBytes body hfit
  have htwo : rows.length = 2 := rfl
  rw [htwo] at hrows
  simp only [parseTable, executableFields, hcount, hopen, hrows, bind, Except.bind, ↓reduceIte]
  simp [rows, loadRow, ProgramHeader.ofFields, loadFields, encoding64, pure, Except.pure]

/-- The object behind the headers, whatever follows them. It has no sections and no symbols. -/
theorem Object.parse_executableHeaders (h : SizesFit textSize dataSize) (body : Bytes) :
    Object.parse (executableHeaders textAddress textSize dataAddress dataSize ++ body) =
      .ok
        { header := executableFields
          programs := [loadFields 5 176 textAddress textSize,
            loadFields 6 (176 + textSize) dataAddress dataSize]
          sections := [], sectionNames := .empty, symbols := [], symbolNames := .empty
          dynamicSymbols := [], dynamicNames := .empty } := by
  have hheader :
      Header.parse (executableHeaders textAddress textSize dataAddress dataSize ++ body) =
        .ok executableFields := by
    rw [executableHeaders, List.append_assoc, List.append_assoc]
    exact Header.parse_executableHeader _ _
  simp only [Object.parse, hheader, ProgramHeader.parseTable_executableHeaders h, bind, Except.bind]
  rfl

/-- Loading the instructions: their addresses are checked before their bytes. -/
theorem Object.loadSegment_text (h : SizesFit textSize dataSize) (body : Bytes) :
    loadSegment (executableHeaders textAddress textSize dataAddress dataSize ++ body)
        (loadFields 5 176 textAddress textSize) 0 =
      if lastAddress < textAddress.toNat + textSize then
        .error (.addressOverflow (.segment 0) textAddress.toNat textSize)
      else if body.length < textSize then
        .error (.outOfBounds (.segment 0) 176 textSize (176 + body.length))
      else .ok ⟨textAddress, body.take textSize, .readExecute, textSize⟩ := by
  have hsize : (UInt64.ofNat textSize).toNat = textSize :=
    UInt64.toNat_ofNat_of_lt' (Nat.lt_of_le_of_lt (Nat.le_add_left _ _) h.text)
  have hoffset : (UInt64.ofNat 176).toNat = 176 := rfl
  have hexecute : (permissions 5).execute = true := rfl
  have hdrop : (executableHeaders textAddress textSize dataAddress dataSize ++ body).drop 176 =
      body := by
    rw [← length_executableHeaders textAddress textSize dataAddress dataSize, List.drop_left]
  simp only [loadSegment, loadFields, fileSlice, hsize, hoffset, hexecute, hdrop, Nat.max_self,
    List.length_append, length_executableHeaders, ↓reduceIte, gt_iff_lt]
  split
  · rfl
  · by_cases hbody : body.length < textSize
    · rw [if_pos hbody, if_neg (by omega)]
      rfl
    · have hmemory : max textSize (body.take textSize).length = textSize := by
        rw [List.length_take]
        omega
      rw [if_neg hbody, if_pos (by omega)]
      simp only [bind, Except.bind, pure, Except.pure, Segment.withMemorySize, Segment.new, hmemory]
      rfl

/-- Data is only placed, so it does not matter whether the file holds it. -/
theorem Object.loadSegment_data (h : SizesFit textSize dataSize) (file : Bytes) (offset : Nat) :
    loadSegment file (loadFields 6 offset dataAddress dataSize) 1 =
      if lastAddress < dataAddress.toNat + dataSize then
        .error (.addressOverflow (.segment 1) dataAddress.toNat dataSize)
      else .ok ⟨dataAddress, [], ⟨true, true, false⟩, dataSize⟩ := by
  have hsize : (UInt64.ofNat dataSize).toNat = dataSize := UInt64.toNat_ofNat_of_lt' h.data
  have hexecute : (permissions 6).execute = false := rfl
  simp only [loadSegment, loadFields, hsize, hexecute, Nat.max_self, gt_iff_lt]
  split
  · rfl
  · simp only [bind, Except.bind, pure, Except.pure, Segment.withMemorySize, Segment.new,
      List.length_nil, Nat.max_zero]
    rfl

theorem Object.loadSegments_pair {file : Bytes} {p q : ProgramHeader} {m n : Nat}
    (hp : p.type = ProgramHeader.load) (hq : q.type = ProgramHeader.load) :
    loadSegments file [(p, m), (q, n)] = do
      let first ← loadSegment file p m
      let second ← loadSegment file q n
      return [first, second] := by
  simp only [loadSegments, hp, hq, ↓reduceIte]
  cases loadSegment file p m with
  | error e => rfl
  | ok first => cases loadSegment file q n <;> rfl

/-- What the parser makes of the headers and whatever follows them: the text is checked before the
data, and the addresses of a segment before its bytes. -/
theorem parseImage_executableHeaders (h : SizesFit textSize dataSize) (body : Bytes) :
    parseImage (executableHeaders textAddress textSize dataAddress dataSize ++ body) =
      if lastAddress < textAddress.toNat + textSize then
        .error (.addressOverflow (.segment 0) textAddress.toNat textSize)
      else if body.length < textSize then
        .error (.outOfBounds (.segment 0) 176 textSize (176 + body.length))
      else if lastAddress < dataAddress.toNat + dataSize then
        .error (.addressOverflow (.segment 1) dataAddress.toNat dataSize)
      else .ok
        ⟨[⟨textAddress, body.take textSize, .readExecute, textSize⟩,
          ⟨dataAddress, [], ⟨true, true, false⟩, dataSize⟩], [], []⟩ := by
  set file := executableHeaders textAddress textSize dataAddress dataSize ++ body with hfile
  have hsegments : parseImage file =
      Object.loadSegments file [(loadFields 5 176 textAddress textSize, 0),
        (loadFields 6 (176 + textSize) dataAddress dataSize, 1)] >>= fun segments =>
          .ok ⟨segments, [], []⟩ := by
    rw [parseImage, hfile, Object.parse_executableHeaders h]
    rfl
  rw [hsegments, Object.loadSegments_pair rfl rfl, Object.loadSegment_data h, hfile,
    Object.loadSegment_text h]
  split_ifs <;> rfl

end Headers

/-- The image of `executableFile`: the instructions with their bytes, and the place of the data. -/
def executableImage (textAddress : UInt64) (code : List UInt32) (dataAddress : UInt64)
    (data : List UInt32) : Image :=
  { segments := [⟨textAddress, wordsBytes code, ⟨true, false, true⟩, 4 * code.length⟩,
      ⟨dataAddress, [], ⟨true, true, false⟩, 4 * data.length⟩]
    sections := [], symbols := [] }

section Files

variable {textAddress dataAddress : UInt64} {code data : List UInt32} {part : Bytes}

/-- A part of the file that holds the headers goes on with a part of the instructions and data. -/
theorem exists_body_of_prefix (h : part <+: executableFile textAddress code dataAddress data)
    (hlength : 176 ≤ part.length) :
    ∃ body, part = executableHeaders textAddress (4 * code.length) dataAddress (4 * data.length) ++
      body ∧ body <+: wordsBytes code ++ wordsBytes data := by
  obtain ⟨body, rfl⟩ : executableHeaders textAddress (4 * code.length) dataAddress
      (4 * data.length) <+: part := by
    apply List.prefix_of_prefix_length_le (List.prefix_append _ _) h
    rw [length_executableHeaders]
    exact hlength
  exact ⟨body, rfl, (List.prefix_append_right_inj _).mp h⟩

theorem take_body {body : Bytes} (h : body <+: wordsBytes code ++ wordsBytes data)
    (hlength : 4 * code.length ≤ body.length) : body.take (4 * code.length) = wordsBytes code := by
  have hcode : wordsBytes code <+: body := by
    apply List.prefix_of_prefix_length_le (List.prefix_append _ _) h
    rw [length_wordsBytes]
    exact hlength
  rw [← length_wordsBytes code, ← List.prefix_iff_eq_take.mp hcode]

end Files

/-- Writing an executable and parsing it, or a part of it that holds the headers. If both segments
end inside the address space, the image is read back from every part that holds all instructions,
and a part that is cut off in them is out of bounds; if one does not, that is reported, the text
before the data. -/
theorem parseImage_executableFile (textAddress : UInt64) (code : List UInt32) (dataAddress : UInt64)
    (data : List UInt32)
    (hlength : (executableFile textAddress code dataAddress data).length < 2 ^ 63) :
    let file := executableFile textAddress code dataAddress data
    (textAddress.toNat + 4 * code.length ≤ lastAddress →
      dataAddress.toNat + 4 * data.length ≤ lastAddress →
      parseImage file = .ok (executableImage textAddress code dataAddress data) ∧
      (∀ part, part <+: file → 176 + 4 * code.length ≤ part.length →
        parseImage part = .ok (executableImage textAddress code dataAddress data)) ∧
      ∀ part, part <+: file → 176 ≤ part.length → part.length < 176 + 4 * code.length →
        parseImage part = .error (.outOfBounds (.segment 0) 176 (4 * code.length) part.length)) ∧
    (lastAddress < textAddress.toNat + 4 * code.length →
      parseImage file =
        .error (.addressOverflow (.segment 0) textAddress.toNat (4 * code.length))) ∧
    (textAddress.toNat + 4 * code.length ≤ lastAddress →
      lastAddress < dataAddress.toNat + 4 * data.length →
      parseImage file =
        .error (.addressOverflow (.segment 1) dataAddress.toNat (4 * data.length))) := by
  intro file
  rw [length_executableFile] at hlength
  have hsizes : SizesFit (4 * code.length) (4 * data.length) := by
    constructor <;> simp only [UInt64.size] <;> omega
  have hbody : (wordsBytes code ++ wordsBytes data).length = 4 * code.length + 4 * data.length := by
    simp
  have hfile : parseImage file = _ := parseImage_executableHeaders hsizes _
  refine ⟨fun htext hdata => ?_, fun htext => ?_, fun htext hdata => ?_⟩
  · have hwhole : ∀ part, part <+: file → 176 + 4 * code.length ≤ part.length →
        parseImage part = .ok (executableImage textAddress code dataAddress data) := by
      intro part hpart hlong
      obtain ⟨body, rfl, hbody⟩ := exists_body_of_prefix hpart (by omega)
      rw [List.length_append, length_executableHeaders] at hlong
      rw [parseImage_executableHeaders hsizes, if_neg (by omega), if_neg (by omega),
        if_neg (by omega), take_body hbody (by omega)]
      rfl
    refine ⟨hwhole file List.prefix_rfl (by rw [length_executableFile]; omega), hwhole, ?_⟩
    intro part hpart hheaders hshort
    obtain ⟨body, rfl, -⟩ := exists_body_of_prefix hpart hheaders
    rw [List.length_append, length_executableHeaders] at hshort ⊢
    rw [parseImage_executableHeaders hsizes, if_neg (by omega), if_pos (by omega)]
  · rw [hfile, if_pos htext]
  · rw [hfile, if_neg (by omega), if_neg (by omega), if_pos hdata]

/-- Two instructions that end right at the last address, whole and cut off by one byte; the same
one byte further; and data that ends past the last address. -/
theorem parseImage_executableFile_boundary :
    let code : List UInt32 := [0xD503201F, 0xD63F0000]
    let file := executableFile 0xFFFFFFFFFFFFFFF7 code 0x2000 [7]
    let image := executableImage 0xFFFFFFFFFFFFFFF7 code 0x2000 [7]
    parseImage file = .ok image ∧ parseImage (file.take 184) = .ok image ∧
      parseImage (file.take 183) = .error (.outOfBounds (.segment 0) 176 8 183) ∧
      parseImage (executableFile 0xFFFFFFFFFFFFFFF8 code 0x2000 [7]) =
        .error (.addressOverflow (.segment 0) 0xFFFFFFFFFFFFFFF8 8) ∧
      parseImage (executableFile 0x1000 code 0xFFFFFFFFFFFFFFFC [7]) =
        .error (.addressOverflow (.segment 1) 0xFFFFFFFFFFFFFFFC 4) := by
  intro code file image
  have hlength (text data : UInt64) : (executableFile text code data [7]).length < 2 ^ 63 := by
    rw [length_executableFile]
    decide
  obtain ⟨hread, hparts, hcut⟩ :=
    (parseImage_executableFile 0xFFFFFFFFFFFFFFF7 code 0x2000 [7] (hlength _ _)).1 (by decide)
      (by decide)
  have htake {n : Nat} (hn : n ≤ 188) : (file.take n).length = n := by
    rw [List.length_take_of_le]
    rw [length_executableFile]
    exact hn
  refine ⟨hread, hparts (file.take 184) (List.take_prefix _ _) ?_, ?_, ?_, ?_⟩
  · rw [htake (by decide)]
    decide
  · have hcut := hcut (file.take 183) (List.take_prefix _ _)
    rw [htake (by decide)] at hcut
    exact hcut (by decide) (by decide)
  · exact (parseImage_executableFile 0xFFFFFFFFFFFFFFF8 code 0x2000 [7] (hlength _ _)).2.1
      (by decide)
  · exact (parseImage_executableFile 0x1000 code 0xFFFFFFFFFFFFFFFC [7] (hlength _ _)).2.2
      (by decide) (by decide)

end Elf
end IndirectBranch
