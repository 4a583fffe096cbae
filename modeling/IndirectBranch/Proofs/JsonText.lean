import IndirectBranch.Json.Printer
import IndirectBranch.Json.Reader
import IndirectBranch.Proofs.Hexadecimal

/-! JSON text is read back. A string is read back from its quoted form and a number of 64 bits from
its digits, whatever follows; lists and objects are read with any blanks between their parts, so
the text without blanks and the indented text of a value both lead back to it. -/
namespace IndirectBranch.Json

/-! Strings. -/

theorem hexQuad?_hexPadded {n : Nat} (h : n < 0x20) (rest : List Char) :
    hexQuad? ((Text.hexPadded 4 n).toList ++ rest) = some (n, rest) := by
  have hall : ∀ n : Fin 0x20, (Text.hexPadded 4 n).toList =
      ['0', '0', (n / 16 : Nat).digitChar, (n % 16 : Nat).digitChar] := by decide +kernel
  have hdigit {d : Nat} (hd : d < 16) : Text.hexValue? d.digitChar = some d :=
    Text.hexValue?_eq_some_iff.mpr ⟨hd, .inl rfl⟩
  have hzero : Text.hexValue? '0' = some 0 := by decide
  rw [hall ⟨n, h⟩]
  simp only [List.cons_append, List.nil_append, hexQuad?, hzero, Option.bind_eq_bind,
    Option.bind_some, hdigit (show n / 16 < 16 by omega), hdigit (Nat.mod_lt n (by decide)),
    Option.pure_def, Option.some.injEq, Prod.mk.injEq, and_true]
  omega

def prepend (c : Char) (r : Read (List Char)) : Read (List Char) :=
  r.map fun (cs, rest) => (c :: cs, rest)

theorem stringBody_escape {s rest : List Char} {c : Char} (h : escape s = .ok (c, rest)) :
    stringBody ('\\' :: s) = prepend c (stringBody rest) := by
  rw [stringBody]
  simp only [Char.reduceEq, ↓reduceIte]
  split
  · simp_all
  · rename_i heq
    rw [h] at heq
    cases heq
    cases stringBody rest <;> rfl

theorem stringBody_plain {c : Char} {s : List Char} (hquote : c ≠ '"') (hslash : c ≠ '\\')
    (hcontrol : ¬ c.toNat < 0x20) : stringBody (c :: s) = prepend c (stringBody s) := by
  rw [stringBody, if_neg hquote, if_neg hslash, if_neg hcontrol]
  cases stringBody s <;> rfl

/-- Every character is read back from the way it is written in a string. -/
theorem stringBody_escapedChar (c : Char) (rest : List Char) :
    stringBody ((escapedChar c).toList ++ rest) = prepend c (stringBody rest) := by
  unfold escapedChar
  split
  case h_8 =>
    split
    next hcontrol =>
      have hquad := hexQuad?_hexPadded hcontrol rest
      have hescape : escape ('u' :: ((Text.hexPadded 4 c.toNat).toList ++ rest)) =
          .ok (c, rest) := by
        have htrailing : isTrailing c.toNat = false := by simp [isTrailing]; omega
        have hleading : isLeading c.toNat = false := by simp [isLeading]; omega
        simp [escape, hexQuad, hquad, htrailing, hleading]
      simpa using stringBody_escape hescape
    next hcontrol =>
      simpa using stringBody_plain ‹_› ‹_› hcontrol
  all_goals exact stringBody_escape rfl

def quoted (s : String) : List Char := s.toList.flatMap fun c => (escapedChar c).toList

theorem toList_quote (s : String) : (quote s).toList = '"' :: (quoted s ++ ['"']) := by
  unfold quote
  simp [quoted, List.flatMap_map]

/-- A string is read back, whatever follows its closing quote. -/
theorem string_quoted (s : String) (rest : List Char) :
    string (quoted s ++ '"' :: rest) = .ok (s, rest) := by
  have hbody (cs : List Char) :
      stringBody (cs.flatMap (fun c => (escapedChar c).toList) ++ '"' :: rest) =
        .ok (cs, rest) := by
    induction cs with
    | nil =>
      rw [List.flatMap_nil, List.nil_append, stringBody]
      rfl
    | cons c cs ih =>
      rw [List.flatMap_cons, List.append_assoc, stringBody_escapedChar, ih]
      rfl
  simp only [string, quoted, hbody, String.ofList_toList]

/-! Numbers. -/

/-- What follows does not go on with the digits of a number. -/
def EndsNumber (rest : List Char) : Prop :=
  ∀ c ∈ rest.head?, isDigit c = false ∧ c ≠ '.' ∧ c ≠ 'e' ∧ c ≠ 'E'

theorem isDigit_of_mem_toDigits {n : Nat} {c : Char} (h : c ∈ Nat.toDigits 10 n) :
    isDigit c = true := by
  have hdigit := Nat.isDigit_of_mem_toDigits (by decide) (by decide) h
  simpa [isDigit, Char.isDigit, Char.le_def] using hdigit

/-- Digits are worth what they stand for, as long as that fits 64 bits. -/
theorem Scaled.whole_eq {digits : List Char} {start : Nat}
    (h : Nat.ofDigitChars 10 digits start < UInt64.size) :
    Scaled.whole start digits = ⟨Nat.ofDigitChars 10 digits start, 0⟩ := by
  induction digits generalizing start with
  | nil => rfl
  | cons d ds ih =>
    have hnext : start * 10 + digitValue d = 10 * start + (d.toNat - '0'.toNat) := by
      rw [digitValue, Nat.mul_comm]
    rw [Nat.ofDigitChars_cons] at h ⊢
    have hle : 10 * start + (d.toNat - '0'.toNat) ≤
        Nat.ofDigitChars 10 ds (10 * start + (d.toNat - '0'.toNat)) := by
      rw [Nat.ofDigitChars_eq_ofDigitChars_zero]
      exact Nat.le_add_right_of_le (Nat.le_mul_of_pos_left _ (Nat.pow_pos (by decide)))
    rw [Scaled.whole, hnext, if_pos (by omega), ih h]

theorem exists_toDigits_eq_cons (n : Nat) :
    ∃ d ds, Nat.toDigits 10 n = d :: ds ∧ (d = '0' → n = 0) := by
  induction n using Nat.strongRecOn with
  | ind n ih =>
    rw [Nat.toDigits_eq_if (by decide)]
    split
    · exact ⟨_, _, rfl, Nat.digitChar_eq_zero.mp⟩
    · obtain ⟨d, ds, hdigits, hzero⟩ := ih (n / 10) (by omega)
      rw [hdigits]
      refine ⟨d, _, rfl, fun hd => ?_⟩
      have := hzero hd
      omega

theorem takeWhile_isDigit {digits rest : List Char} (hdigits : ∀ c ∈ digits, isDigit c = true)
    (hrest : EndsNumber rest) : (digits ++ rest).takeWhile isDigit = digits ∧
      (digits ++ rest).dropWhile isDigit = rest := by
  rw [List.takeWhile_append_of_pos hdigits, List.dropWhile_append_of_pos hdigits]
  cases rest with
  | nil => simp
  | cons c rest =>
    have hc := (hrest c rfl).1
    simp [hc]

/-- A number of 64 bits is read back, as long as nothing follows that goes on with it. -/
theorem number_repr {n : Nat} (h : n < UInt64.size) {rest : List Char} (hrest : EndsNumber rest) :
    number false ((Nat.repr n).toList ++ rest) = .ok (.nat n, rest) := by
  have hdigits : ∀ c ∈ Nat.toDigits 10 n, isDigit c = true := fun c => isDigit_of_mem_toDigits
  obtain ⟨htake, hdrop⟩ := takeWhile_isDigit hdigits hrest
  have hwhole : Scaled.whole 0 (Nat.toDigits 10 n) = ⟨n, 0⟩ := by
    have hvalue : Nat.ofDigitChars 10 (Nat.toDigits 10 n) 0 = n := Nat.ofDigitChars_ten_toDigits
    rw [Scaled.whole_eq (hvalue.symm ▸ h), hvalue]
  obtain ⟨d, ds, hcons, hzero⟩ := exists_toDigits_eq_cons n
  have hd : isDigit d = true := hdigits d (by rw [hcons]; exact List.mem_cons_self)
  have hfront : ¬ (d = '0' ∧ ((ds ++ rest).head?.map isDigit).getD false = true) := by
    rintro ⟨rfl, hnext⟩
    obtain rfl := hzero rfl
    obtain rfl : ds = [] := (List.cons.inj hcons).2.symm
    cases rest with
    | nil => cases hnext
    | cons c rest =>
      have hc := (hrest c rfl).1
      simp [hc] at hnext
  rw [Nat.repr_eq_ofList_toDigits, String.toList_ofList]
  rw [hcons, List.cons_append] at htake hdrop
  rw [hcons, List.cons_append, number, if_neg (by simp [hd]), if_neg hfront, htake, hdrop, ← hcons,
    hwhole]
  split
  · exact absurd rfl (hrest _ rfl).2.1
  · exact absurd rfl (hrest _ rfl).2.2.1
  · exact absurd rfl (hrest _ rfl).2.2.2
  · rfl

/-! Lists and objects. -/

def Blank (s : List Char) : Prop := ∀ c ∈ s, isBlank c = true

theorem skipBlank_append {b : List Char} (hb : Blank b) (s : List Char) :
    skipBlank (b ++ s) = skipBlank s := List.dropWhile_append_of_pos hb

theorem skipBlank_cons {c : Char} (hc : isBlank c = false) (s : List Char) :
    skipBlank (c :: s) = c :: s := by
  simp [skipBlank, hc]

theorem skipBlank_blank_cons {b : List Char} (hb : Blank b) {c : Char} (hc : isBlank c = false)
    (s : List Char) : skipBlank (b ++ c :: s) = c :: s := by
  rw [skipBlank_append hb, skipBlank_cons hc]

/-- A number ends before a blank, so only what follows the blanks could go on with it. -/
theorem endsNumber_blank_append {b s : List Char} (hb : Blank b) (hs : EndsNumber s) :
    EndsNumber (b ++ s) := by
  cases b with
  | nil => exact hs
  | cons c b =>
    rintro d ⟨⟩
    have hc := hb c List.mem_cons_self
    simp only [isBlank, Bool.or_eq_true, beq_iff_eq] at hc
    rcases hc with ((rfl | rfl) | rfl) | rfl <;> decide

/-- The text stands for the value, in front of anything that does not go on with a number. -/
structure ReadsAs (depth : Nat) (text : List Char) (v : Json) : Prop where
  starts : ∃ c rest, text = c :: rest ∧ isBlank c = false ∧ c ≠ ']'
  reads : ∀ rest, EndsNumber rest → value depth (text ++ rest) = .ok (v, rest)

theorem ReadsAs.value_blank_append {depth : Nat} {text : List Char} {v : Json}
    (h : ReadsAs depth text v) {gap rest : List Char} (hgap : Blank gap) (hrest : EndsNumber rest) :
    value depth (gap ++ (text ++ rest)) = .ok (v, rest) := by
  have hreads := h.reads rest hrest
  cases depth with
  | zero => cases hreads
  | succ depth =>
    rw [value] at hreads ⊢
    rwa [skipBlank_append hgap]

/-- What stands in front of a part of a list or an object: a comma, but not before the first. -/
def comma (first : Bool) : List Char := if first then [] else [',']

/-- The parts of a list or an object, each after the same blanks. -/
def separated (gap : List Char) : (first : Bool) → List (List Char) → List Char
  | _, [] => []
  | first, t :: ts => comma first ++ (gap ++ (t ++ separated gap false ts))

theorem length_pos_of_starts {text : List Char}
    (h : ∃ c t, text = c :: t ∧ isBlank c = false ∧ c ≠ ']') : 0 < text.length := by
  obtain ⟨c, t, rfl, -⟩ := h
  exact Nat.succ_pos _

/-- No part is empty, so the text around the parts is longer than there are parts. -/
theorem length_lt_length_separated {α : Type} {text : α → List Char} {as : List α}
    (h : ∀ a ∈ as, 0 < (text a).length) (gap : List Char) (c : Char) (rest : List Char) :
    as.length < (c :: (separated gap true (as.map text) ++ rest)).length := by
  have hparts (first : Bool) : as.length ≤ (separated gap first (as.map text)).length := by
    induction as generalizing first with
    | nil => exact Nat.zero_le _
    | cons a as ih =>
      obtain ⟨ha, has⟩ := List.forall_mem_cons.mp h
      have := ih has false
      simp only [List.map_cons, separated, List.length_append, List.length_cons]
      omega
  have := hparts true
  simp only [List.length_cons, List.length_append]
  omega

/-- A number ends where the next part follows, or the end of the list or object. -/
theorem endsNumber_separated {gap close s : List Char} (hclose : Blank close) (hs : EndsNumber s)
    (ts : List (List Char)) : EndsNumber (separated gap false ts ++ (close ++ s)) := by
  cases ts with
  | nil =>
    rw [separated, List.nil_append]
    exact endsNumber_blank_append hclose hs
  | cons t ts =>
    rintro d ⟨⟩
    decide

section Parts

variable {depth : Nat} {gap close : List Char}

theorem nextItem?_close (hclose : Blank close) (first : Bool) (rest : List Char) :
    nextItem? first (close ++ ']' :: rest) = .ok none := by
  simp [nextItem?, skipBlank_blank_cons hclose (show isBlank ']' = false by decide)]

theorem nextItem?_comma (hgap : Blank gap) {c : Char} (hc : isBlank c = false) (hend : c ≠ ']')
    (first : Bool) (rest : List Char) :
    nextItem? first (comma first ++ (gap ++ c :: rest)) = .ok (some (c :: rest)) := by
  have hskip := skipBlank_blank_cons hgap hc rest
  cases first with
  | true => simp [nextItem?, comma, hskip, hend]
  | false =>
    have hcomma := skipBlank_cons (show isBlank ',' = false by decide) (gap ++ c :: rest)
    simp [nextItem?, comma, hcomma, hskip, hend]

/-- A list is read if each of its items is: the text of an item starts with neither a blank nor the
end of the list, and the item is read in front of whatever does not go on with a number. -/
theorem items_separated {α : Type} {item : List Char → Read α} {text : α → List Char}
    (hgap : Blank gap) (hclose : Blank close) {as : List α}
    (hstarts : ∀ a ∈ as, ∃ c t, text a = c :: t ∧ isBlank c = false ∧ c ≠ ']')
    (hreads : ∀ a ∈ as, ∀ rest, EndsNumber rest → item (text a ++ rest) = .ok (a, rest))
    {clock : List Char} (hclock : as.length < clock.length) (first : Bool) (rest : List Char) :
    items item clock first (separated gap first (as.map text) ++ (close ++ ']' :: rest)) =
      .ok (as, close ++ ']' :: rest) := by
  induction as generalizing clock first with
  | nil =>
    cases clock with
    | nil => cases hclock
    | cons _ clock => simp [items, separated, nextItem?_close hclose]
  | cons a as ih =>
    cases clock with
    | nil => cases hclock
    | cons _ clock =>
      obtain ⟨hstart, hstarts⟩ := List.forall_mem_cons.mp hstarts
      obtain ⟨hread, hreads⟩ := List.forall_mem_cons.mp hreads
      obtain ⟨c, t, htext, hc, hend⟩ := hstart
      have hitem := hread (separated gap false (as.map text) ++ (close ++ ']' :: rest))
        (endsNumber_separated hclose (by rintro d ⟨⟩; decide) _)
      have hitems := ih hstarts hreads (Nat.lt_of_succ_lt_succ hclock) false
      rw [htext, List.cons_append] at hitem
      rw [List.map_cons, separated, htext]
      simp only [List.append_assoc, List.cons_append, items, nextItem?_comma hgap hc hend, hitem,
        hitems]

theorem closeList_blank (hclose : Blank close) (rest : List Char) :
    closeList (close ++ ']' :: rest) = .ok rest := by
  simp [closeList, skipBlank_blank_cons hclose (show isBlank ']' = false by decide)]

theorem closeObject_blank (hclose : Blank close) (rest : List Char) :
    closeObject (close ++ '}' :: rest) = .ok rest := by
  simp [closeObject, skipBlank_blank_cons hclose (show isBlank '}' = false by decide)]

theorem readsAs_arr (text : Json → List Char) (hgap : Blank gap) (hclose : Blank close)
    {vs : List Json} (hdepth : depth ≠ 0) (h : ∀ v ∈ vs, ReadsAs depth (text v) v) :
    ReadsAs (depth + 1) ('[' :: (separated gap true (vs.map text) ++ (close ++ [']'])))
      (.arr vs) := by
  refine ⟨⟨'[', _, rfl, by decide, by decide⟩, fun rest _ => ?_⟩
  have hclock := length_lt_length_separated (fun v hv => length_pos_of_starts (h v hv).starts) gap
    '[' (close ++ ']' :: rest)
  have hitems := items_separated hgap hclose (fun v hv => (h v hv).starts)
    (fun v hv => (h v hv).reads) hclock true rest
  simp only [List.cons_append, List.append_assoc, List.nil_append, value,
    skipBlank_cons (show isBlank '[' = false by decide), ↓reduceIte, if_neg hdepth, hitems,
    closeList_blank hclose]
  rfl

def memberText (space : List Char) (text : Json → List Char) (m : String × Json) : List Char :=
  (quote m.1).toList ++ ':' :: (space ++ text m.2)

theorem nextKey?_close (hclose : Blank close) (first : Bool) (rest : List Char) :
    nextKey? first (close ++ '}' :: rest) = .ok none := by
  simp [nextKey?, skipBlank_blank_cons hclose (show isBlank '}' = false by decide)]

theorem nextKey?_comma (hgap : Blank gap) (k : String) (first : Bool) (rest : List Char) :
    nextKey? first (comma first ++ (gap ++ ((quote k).toList ++ rest))) = .ok (some (k, rest)) := by
  have hkey := string_quoted k rest
  have hskip := skipBlank_blank_cons hgap (show isBlank '"' = false by decide)
    (quoted k ++ '"' :: rest)
  rw [toList_quote, List.cons_append, List.append_assoc, List.singleton_append]
  cases first with
  | true => simp [nextKey?, comma, hskip, hkey]
  | false =>
    have hcomma := skipBlank_cons (show isBlank ',' = false by decide)
      (gap ++ '"' :: (quoted k ++ '"' :: rest))
    simp [nextKey?, comma, hcomma, hskip, hkey]

theorem colon_cons (s : List Char) : colon (':' :: s) = .ok s := by
  simp [colon, skipBlank_cons (show isBlank ':' = false by decide)]

theorem members_separated {space : List Char} {text : Json → List Char} (hgap : Blank gap)
    (hspace : Blank space) (hclose : Blank close) {ms : List (String × Json)}
    (h : ∀ m ∈ ms, ReadsAs depth (text m.2) m.2) {clock : List Char}
    (hclock : ms.length < clock.length) (first : Bool) (rest : List Char) :
    members (value depth) clock first
        (separated gap first (ms.map (memberText space text)) ++ (close ++ '}' :: rest)) =
      .ok (ms, close ++ '}' :: rest) := by
  induction ms generalizing clock first with
  | nil =>
    cases clock with
    | nil => cases hclock
    | cons _ clock => simp [members, separated, nextKey?_close hclose]
  | cons m ms ih =>
    cases clock with
    | nil => cases hclock
    | cons _ clock =>
      obtain ⟨hm, hms⟩ := List.forall_mem_cons.mp h
      have hends : EndsNumber
          (separated gap false (ms.map (memberText space text)) ++ (close ++ '}' :: rest)) :=
        endsNumber_separated hclose (by rintro d ⟨⟩; decide) _
      have hread := hm.value_blank_append hspace hends
      have hmembers := ih hms (Nat.lt_of_succ_lt_succ hclock) false
      simp only [List.map_cons, separated, memberText, List.append_assoc, List.cons_append, members,
        nextKey?_comma hgap, colon_cons, hread, hmembers]

theorem length_memberText_pos (space : List Char) (text : Json → List Char) (m : String × Json) :
    0 < (memberText space text m).length := by
  simp only [memberText, List.length_append, List.length_cons]
  omega

theorem readsAs_obj {space : List Char} (text : Json → List Char) (hgap : Blank gap)
    (hspace : Blank space) (hclose : Blank close) {ms : List (String × Json)} (hdepth : depth ≠ 0)
    (h : ∀ m ∈ ms, ReadsAs depth (text m.2) m.2) :
    ReadsAs (depth + 1)
      ('{' :: (separated gap true (ms.map (memberText space text)) ++ (close ++ ['}'])))
      (.obj ms) := by
  refine ⟨⟨'{', _, rfl, by decide, by decide⟩, fun rest _ => ?_⟩
  have hclock := length_lt_length_separated
    (fun m (_ : m ∈ ms) => length_memberText_pos space text m) gap '{' (close ++ '}' :: rest)
  have hmembers := members_separated hgap hspace hclose h hclock true rest
  simp only [List.cons_append, List.append_assoc, List.nil_append, value,
    skipBlank_cons (show isBlank '{' = false by decide), Char.reduceEq, ↓reduceIte, if_neg hdepth,
    hmembers, closeObject_blank hclose]
  rfl

end Parts

/-! Whole values. -/

theorem readsAs_null (depth : Nat) : ReadsAs (depth + 1) "null".toList .null := by
  refine ⟨⟨'n', _, rfl, by decide, by decide⟩, fun rest _ => ?_⟩
  rfl

theorem readsAs_bool (depth : Nat) (b : Bool) :
    ReadsAs (depth + 1) (if b then "true" else "false").toList (.bool b) := by
  cases b with
  | true => exact ⟨⟨'t', _, rfl, by decide, by decide⟩, fun rest _ => rfl⟩
  | false => exact ⟨⟨'f', _, rfl, by decide, by decide⟩, fun rest _ => rfl⟩

theorem readsAs_nat (depth : Nat) {n : Nat} (h : n < UInt64.size) :
    ReadsAs (depth + 1) (Nat.repr n).toList (.nat n) := by
  obtain ⟨d, ds, hdigits, -⟩ := exists_toDigits_eq_cons n
  have htext : (Nat.repr n).toList = d :: ds := by
    rw [Nat.repr_eq_ofList_toDigits, String.toList_ofList, hdigits]
  have hd : isDigit d = true := isDigit_of_mem_toDigits (hdigits ▸ List.mem_cons_self)
  have hother : ∀ c, isDigit c = false → d ≠ c := by
    rintro c hc rfl
    exact absurd hd (by simp [hc])
  have hblank : isBlank d = false := by
    have h (c : Char) (hc : isDigit c = false) : (d == c) = false := beq_false_of_ne (hother c hc)
    simp [isBlank, h ' ' (by decide), h '\n' (by decide), h '\t' (by decide), h '\r' (by decide)]
  refine ⟨⟨d, ds, htext, hblank, hother _ (by decide)⟩, fun rest hrest => ?_⟩
  have hnumber := number_repr h hrest
  rw [htext, List.cons_append] at hnumber ⊢
  rw [value, skipBlank_cons hblank]
  simp only [scalar, hother _ (show isDigit '[' = false by decide),
    hother _ (show isDigit '{' = false by decide), hother _ (show isDigit 'n' = false by decide),
    hother _ (show isDigit 't' = false by decide), hother _ (show isDigit 'f' = false by decide),
    hother _ (show isDigit '-' = false by decide), hd, ↓reduceIte, hnumber]

theorem readsAs_str (depth : Nat) (s : String) : ReadsAs (depth + 1) (quote s).toList (.str s) := by
  rw [toList_quote]
  refine ⟨⟨'"', _, rfl, by decide, by decide⟩, fun rest _ => ?_⟩
  have hstring := string_quoted s rest
  simp only [List.cons_append, List.append_assoc, List.nil_append, value, scalar, Char.reduceEq,
    skipBlank_cons (show isBlank '"' = false by decide), ↓reduceIte, hstring]
  rfl

/-- Flags, whole numbers of 64 bits and strings, and lists and objects of them no deeper than the
reader goes. -/
def Writable : (depth : Nat) → Json → Prop
  | 0, _ => False
  | _ + 1, .null => True
  | _ + 1, .bool _ => True
  | _ + 1, .nat n => n < UInt64.size
  | _ + 1, .neg _ => False
  | _ + 1, .float _ => False
  | _ + 1, .str _ => True
  | depth + 1, .arr vs => depth ≠ 0 ∧ ∀ v ∈ vs, Writable depth v
  | depth + 1, .obj ms => depth ≠ 0 ∧ ∀ m ∈ ms, Writable depth m.2

theorem toList_compactItems (vs : List Json) :
    (compactItems vs).toList = separated [] true (vs.map fun v => (compact v).toList) := by
  induction vs with
  | nil => rfl
  | cons v vs ih =>
    cases vs with
    | nil => simp [compactItems, separated, comma]
    | cons w vs => simpa [compactItems, separated, comma] using ih

theorem toList_compactMembers (ms : List (String × Json)) :
    (compactMembers ms).toList =
      separated [] true (ms.map (memberText [] fun v => (compact v).toList)) := by
  induction ms with
  | nil => rfl
  | cons m ms ih =>
    cases ms with
    | nil => simp [compactMembers, separated, comma, memberText]
    | cons w ms => simpa [compactMembers, separated, comma, memberText] using ih

theorem toList_prettyItems (level : Nat) (vs : List Json) : (prettyItems level vs).toList =
    separated (newLine level).toList true (vs.map fun v => (pretty level v).toList) := by
  induction vs with
  | nil => rfl
  | cons v vs ih =>
    cases vs with
    | nil => simp [prettyItems, separated, comma]
    | cons w vs => simpa [prettyItems, separated, comma] using ih

theorem toList_prettyMembers (level : Nat) (ms : List (String × Json)) :
    (prettyMembers level ms).toList = separated (newLine level).toList true
      (ms.map (memberText [' '] fun v => (pretty level v).toList)) := by
  induction ms with
  | nil => rfl
  | cons m ms ih =>
    cases ms with
    | nil => simp [prettyMembers, separated, comma, memberText]
    | cons w ms => simpa [prettyMembers, separated, comma, memberText] using ih

theorem blank_newLine (level : Nat) : Blank (newLine level).toList := by
  intro c hc
  unfold newLine at hc
  simp only [String.toList_append, String.toList_ofList, List.mem_append, List.mem_replicate] at hc
  rcases hc with hc | ⟨-, rfl⟩
  · simp_all [isBlank]
  · decide

/-- A way of writing values: `text level v` is the text of `v` inside `level` lists and objects. Any
blanks may stand between the parts of a list or an object. -/
structure Spelling (text : (level : Nat) → Json → List Char) : Prop where
  null (level : Nat) : text level .null = "null".toList
  bool (level : Nat) (b : Bool) : text level (.bool b) = (if b then "true" else "false").toList
  nat (level n : Nat) : text level (.nat n) = (Nat.repr n).toList
  str (level : Nat) (s : String) : text level (.str s) = (quote s).toList
  arr (level : Nat) (vs : List Json) : ∃ gap close, Blank gap ∧ Blank close ∧
    text level (.arr vs) =
      '[' :: (separated gap true (vs.map (text (level + 1))) ++ (close ++ [']']))
  obj (level : Nat) (ms : List (String × Json)) : ∃ gap space close, Blank gap ∧ Blank space ∧
    Blank close ∧ text level (.obj ms) =
      '{' :: (separated gap true (ms.map (memberText space (text (level + 1)))) ++
        (close ++ ['}']))

theorem spelling_compact : Spelling fun _ v => (compact v).toList := by
  have hblank : Blank [] := List.forall_mem_nil _
  refine ⟨fun _ => ?_, fun _ b => ?_, fun _ n => ?_, fun _ s => ?_, fun _ vs => ?_, fun _ ms => ?_⟩
  · rw [compact]
  · rw [compact]
  · rw [compact]
  · rw [compact]
  · refine ⟨[], [], hblank, hblank, ?_⟩
    rw [compact]
    simp [toList_compactItems]
  · refine ⟨[], [], [], hblank, hblank, hblank, ?_⟩
    rw [compact]
    simp [openBrace, closeBrace, toList_compactMembers]

theorem spelling_pretty : Spelling fun level v => (pretty level v).toList := by
  have hblank : Blank [] := List.forall_mem_nil _
  have hspace : Blank [' '] := by simp [Blank, isBlank]
  refine ⟨fun _ => ?_, fun _ b => ?_, fun _ n => ?_, fun _ s => ?_, fun level vs => ?_,
    fun level ms => ?_⟩
  · rw [pretty]
  · rw [pretty]
  · rw [pretty]
  · rw [pretty]
  · cases vs with
    | nil => exact ⟨[], [], hblank, hblank, by simp [pretty, separated]⟩
    | cons v vs =>
      refine ⟨_, _, blank_newLine (level + 1), blank_newLine level, ?_⟩
      rw [pretty]
      simp [toList_prettyItems]
  · cases ms with
    | nil =>
      refine ⟨[], [' '], [], hblank, hspace, hblank, ?_⟩
      simp [pretty, separated, openBrace, closeBrace]
    | cons m ms =>
      refine ⟨_, _, _, blank_newLine (level + 1), hspace, blank_newLine level, ?_⟩
      rw [pretty]
      simp [openBrace, closeBrace, toList_prettyMembers]

theorem Spelling.readsAs {text : Nat → Json → List Char} (hs : Spelling text) {depth : Nat}
    {v : Json} (h : Writable depth v) (level : Nat) : ReadsAs depth (text level v) v := by
  induction depth generalizing v level with
  | zero => exact absurd h (by simp [Writable])
  | succ depth ih =>
    cases v with
    | null => exact hs.null level ▸ readsAs_null depth
    | bool b => exact hs.bool level b ▸ readsAs_bool depth b
    | nat n => exact hs.nat level n ▸ readsAs_nat depth h
    | neg n => exact h.elim
    | float x => exact h.elim
    | str s => exact hs.str level s ▸ readsAs_str depth s
    | arr vs =>
      obtain ⟨gap, close, hgap, hclose, htext⟩ := hs.arr level vs
      rw [htext]
      exact readsAs_arr _ hgap hclose h.1 fun v hv => ih (h.2 v hv) (level + 1)
    | obj ms =>
      obtain ⟨gap, space, close, hgap, hspace, hclose, htext⟩ := hs.obj level ms
      rw [htext]
      exact readsAs_obj _ hgap hspace hclose h.1 fun m hm => ih (h.2 m hm) (level + 1)

theorem ReadsAs.parse_eq {text : String} {t gap : List Char} {v : Json}
    (h : ReadsAs maxDepth t v) (hgap : Blank gap) (htext : text.toList = t ++ gap) :
    parse text = .ok v := by
  have hends : EndsNumber gap := by
    simpa using endsNumber_blank_append hgap (s := []) (by rintro c ⟨⟩)
  have hskip : skipBlank gap = [] := by
    have h := skipBlank_append hgap []
    rwa [List.append_nil] at h
  simp only [parse, htext, h.reads gap hends, finish, hskip]

theorem parse_compact {v : Json} (h : Writable maxDepth v) : parse v.compact = .ok v :=
  (spelling_compact.readsAs h 0).parse_eq (List.forall_mem_nil _) (by simp)

theorem parse_pretty {v : Json} (h : Writable maxDepth v) : parse (v.pretty 0 ++ "\n") = .ok v :=
  (spelling_pretty.readsAs h 0).parse_eq (blank_newLine 0) (by simp [newLine])

end IndirectBranch.Json
