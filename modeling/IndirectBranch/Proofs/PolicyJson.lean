import IndirectBranch.Policy.File
import IndirectBranch.Proofs.JsonText

/-! Policies are read back from their JSON text. The reader takes fields in any order, numbers in
two forms and defaults for what is missing, so it is no mirror of the printer; but what the printer
writes it reads, one field after another, into the draft of the same record. A policy read from any
text is therefore a fixed point of writing and reading. -/
namespace IndirectBranch
namespace Json.Source

/-- The source reads `a` from the text, after any blanks and in front of anything that does not go
on with a number. -/
structure Reads {α : Type} (source : Source α) (depth : Nat) (text : List Char) (a : α) : Prop where
  starts : ∃ c rest, text = c :: rest ∧ isBlank c = false ∧ c ≠ ']'
  reads : ∀ gap, Blank gap → ∀ rest, EndsNumber rest →
    source depth (gap ++ (text ++ rest)) = .ok (a, rest)

theorem reads_text (depth : Nat) (s : String) : Reads text depth (quote s).toList s := by
  rw [toList_quote]
  refine ⟨⟨'"', _, rfl, by decide, by decide⟩, fun gap hgap rest _ => ?_⟩
  simp only [List.cons_append, List.append_assoc, List.nil_append, text,
    skipBlank_blank_cons hgap (show isBlank '"' = false by decide), ↓reduceIte, string_quoted]

theorem reads_optionalText (depth : Nat) (s : String) :
    Reads optionalText depth (quote s).toList (some s) := by
  obtain ⟨hstarts, hreads⟩ := reads_text depth s
  refine ⟨hstarts, fun gap hgap rest hrest => ?_⟩
  have htext := hreads [] (List.forall_mem_nil _) rest hrest
  rw [toList_quote] at htext ⊢
  simp only [List.cons_append, List.append_assoc, List.nil_append, optionalText,
    skipBlank_blank_cons hgap (show isBlank '"' = false by decide)] at htext ⊢
  exact congrArg (Except.map fun read => (some read.1, read.2)) htext

theorem reads_flag (depth : Nat) (b : Bool) :
    Reads flag depth (if b then "true" else "false").toList b := by
  cases b with
  | true =>
    refine ⟨⟨'t', _, rfl, by decide, by decide⟩, fun gap hgap rest _ => ?_⟩
    simp [flag, skipBlank_blank_cons hgap (show isBlank 't' = false by decide), literal, Except.map]
  | false =>
    refine ⟨⟨'f', _, rfl, by decide, by decide⟩, fun gap hgap rest _ => ?_⟩
    simp [flag, skipBlank_blank_cons hgap (show isBlank 'f' = false by decide), literal, Except.map]

theorem reads_number (depth : Nat) (n : UInt64) :
    Reads number (depth + 1) (Nat.repr n.toNat).toList (.integer n) := by
  have hvalue := readsAs_nat depth n.toNat_lt_size
  refine ⟨hvalue.starts, fun gap hgap rest hrest => ?_⟩
  simp only [number, hvalue.value_blank_append hgap hrest, UInt64.ofNat_toNat]

section Parts

variable {α β σ : Type} {depth level : Nat}

theorem Reads.refine {source : Source α} {check : α → Except Mismatch β} {text : List Char} {a : α}
    {b : β} (h : Reads source depth text a) (hcheck : check a = .ok b) :
    Reads (Format.refine source check) depth text b := by
  refine ⟨h.starts, fun gap hgap rest hrest => ?_⟩
  have hread := h.reads gap hgap rest hrest
  simp only [Format.refine, judge, hread, hcheck]

theorem Reads.field {source : Source α} {text : List Char} {a : α}
    (h : Reads source depth text a) (name : String) (required : Bool) (isSet : σ → Bool)
    (put : α → σ → σ) :
    Reads (Field.of name required source isSet put).read depth text (put a) :=
  h.refine rfl

/-- The members of an object fill a draft, one field after another. -/
inductive Fills (fields : List (Field Source σ)) (depth : Nat) (text : Json → List Char) :
    σ → List (String × Json) → σ → Prop
  | nil (draft : σ) : Fills fields depth text draft [] draft
  | cons {draft result : σ} {key : String} {v : Json} {members : List (String × Json)}
      {f : Field Source σ} {put : σ → σ} (known : fields.find? (·.name == key) = some f)
      (unset : f.isSet draft = false) (reads : Reads f.read depth (text v) put)
      (next : Fills fields depth text (put draft) members result) :
      Fills fields depth text draft ((key, v) :: members) result

theorem named_separated {fields : List (Field Source σ)} {text : Json → List Char}
    {gap space close : List Char} (hgap : Blank gap) (hspace : Blank space) (hclose : Blank close)
    {draft result : σ} {ms : List (String × Json)}
    (h : Fills fields depth text draft ms result) {clock : List Char}
    (hclock : ms.length < clock.length) (first : Bool) (rest : List Char) :
    named fields depth clock first draft
        (separated gap first (ms.map (memberText space text)) ++ (close ++ '}' :: rest)) =
      .ok (result, close ++ '}' :: rest) := by
  induction h generalizing clock first with
  | nil draft =>
    cases clock with
    | nil => cases hclock
    | cons _ clock => simp [named, separated, nextKey?_close hclose]
  | @cons draft result key v ms f put hknown hunset hreads _ ih =>
    cases clock with
    | nil => cases hclock
    | cons _ clock =>
      have hends : EndsNumber
          (separated gap false (ms.map (memberText space text)) ++ (close ++ '}' :: rest)) :=
        endsNumber_separated hclose (by rintro d ⟨⟩; decide) _
      have hread := hreads.reads space hspace _ hends
      have hrest := ih (Nat.lt_of_succ_lt_succ hclock) false
      simp only [List.map_cons, separated, memberText, List.append_assoc, List.cons_append, named,
        nextKey?_comma hgap, hknown, hunset, Bool.false_eq_true, ↓reduceIte, colon_cons, hread,
        hrest]

variable {text : Nat → Json → List Char} (hs : Spelling text)
include hs

/-- An object is read as a record if its members fill the draft of the record. -/
theorem reads_record {r : Record Source σ α} {ms : List (String × Json)} {draft : σ} {a : α}
    (h : Fills r.fields (depth + 1) (text (level + 1)) r.start ms draft)
    (hfinish : r.finish draft = .ok a) :
    Reads (record r) (depth + 2) (text level (.obj ms)) a := by
  obtain ⟨gap, space, close, hgap, hspace, hclose, htext⟩ := hs.obj level ms
  rw [htext]
  refine ⟨⟨'{', _, rfl, by decide, by decide⟩, fun front hfront rest _ => ?_⟩
  have hclock := length_lt_length_separated
    (fun m (_ : m ∈ ms) => length_memberText_pos space (text (level + 1)) m) gap '{'
    (close ++ '}' :: rest)
  have hnamed := named_separated hgap hspace hclose h hclock true rest
  simp only [List.cons_append, List.append_assoc, List.nil_append, record,
    skipBlank_blank_cons hfront (show isBlank '{' = false by decide), Char.reduceEq, ↓reduceIte,
    show ¬ depth + 2 ≤ 1 by omega, Nat.add_one_sub_one, hnamed, judge, hfinish, finishObject,
    closeObject_blank hclose]
  rfl

theorem reads_list {item : Source α} {encode : α → Json} {as : List α}
    (h : ∀ a ∈ as, Reads item (depth + 1) (text (level + 1) (encode a)) a) :
    Reads (list item) (depth + 2) (text level (.arr (as.map encode))) as := by
  obtain ⟨gap, close, hgap, hclose, htext⟩ := hs.arr level (as.map encode)
  rw [htext, List.map_map]
  change Reads _ _
    ('[' :: (separated gap true (as.map fun a => text (level + 1) (encode a)) ++ _)) as
  refine ⟨⟨'[', _, rfl, by decide, by decide⟩, fun front hfront rest _ => ?_⟩
  have hclock := length_lt_length_separated (fun a ha => length_pos_of_starts (h a ha).starts) gap
    '[' (close ++ ']' :: rest)
  have hitems := items_separated hgap hclose (fun a ha => (h a ha).starts)
    (fun a ha => (h a ha).reads [] (List.forall_mem_nil _)) hclock true rest
  simp only [List.cons_append, List.append_assoc, List.nil_append, list,
    skipBlank_blank_cons hfront (show isBlank '[' = false by decide), ↓reduceIte,
    show ¬ depth + 2 ≤ 1 by omega, Nat.add_one_sub_one, hitems, finishList,
    closeList_blank hclose]
  rfl

end Parts

theorem Reads.run_eq {α : Type} {source : Source α} {text : String} {a : α}
    (h : Reads source maxDepth text.toList a) : run source text = .ok a := by
  have hread := h.reads [] (List.forall_mem_nil _) [] (by rintro c ⟨⟩)
  rw [List.nil_append, List.append_nil] at hread
  simp only [run, hread, finish]
  rfl

end Json.Source

open Json (Spelling)
open Json.Source

section Policies

variable {text : Nat → Json → List Char} (hs : Spelling text) (level depth : Nat)
include hs

theorem reads_numberValue (n : UInt64) :
    Reads numberValue (depth + 1) (text level (.nat n.toNat)) n :=
  Reads.refine (hs.nat level n.toNat ▸ reads_number depth n) rfl

theorem reads_wordValue (w : UInt32) :
    Reads wordValue (depth + 1) (text level (.nat w.toNat)) w := by
  have hword : RawNumber.word w.toUInt64 = .ok w := by
    simp [RawNumber.word, w.toNat_lt_size]
  have hnumber := reads_numberValue hs level depth w.toUInt64
  rw [UInt32.toNat_toUInt64] at hnumber
  exact hnumber.refine hword

theorem OpcodeClass.reads_toJson (c : OpcodeClass) :
    Reads OpcodeClass.value (depth + 2) (text level c.toJson) c := by
  have hname := hs.str (level + 1) c.name ▸ reads_text (depth + 1) c.name
  have hmask := reads_wordValue hs (level + 1) depth c.mask
  have hbits := reads_wordValue hs (level + 1) depth c.bits
  have hfills : Fills (OpcodeClass.record (m := Json.Source)).fields (depth + 1)
      (text (level + 1)) {}
      [("name", .str c.name), ("mask", .nat c.mask.toNat), ("pattern", .nat c.bits.toNat)]
      ⟨c.name, c.mask, c.bits⟩ :=
    .cons rfl rfl (hname.field ..) <| .cons rfl rfl (hmask.field ..) <|
      .cons rfl rfl (hbits.field ..) <| .nil _
  refine (reads_record hs hfills rfl).refine ?_
  simp [OpcodeClass.make, c.name_ne, c.bits_inside]

theorem Exemption.reads_toJson (e : Exemption) :
    Reads (Format.record Exemption.record) (depth + 2) (text level e.toJson) e := by
  have hsymbol := hs.str (level + 1) e.symbol ▸ reads_text (depth + 1) e.symbol
  have hoffset := reads_numberValue hs (level + 1) depth e.maxOffset
  have hfills : Fills (Exemption.record (m := Json.Source)).fields (depth + 1) (text (level + 1)) {}
      [("symbol", .str e.symbol), ("max_offset", .nat e.maxOffset.toNat)]
      ⟨e.symbol, e.maxOffset⟩ :=
    .cons rfl rfl (hsymbol.field ..) <| .cons rfl rfl (hoffset.field ..) <| .nil _
  exact reads_record hs hfills rfl

theorem Policy.reads_toJson (p : Policy) :
    Reads Policy.value (depth + 4) (text level p.toJson) p := by
  have hversion := hs.str (level + 1) p.version ▸ reads_text (depth + 3) p.version
  have hflag := hs.bool (level + 1) p.pointerAuth ▸ reads_flag (depth + 3) p.pointerAuth
  have hclasses := reads_list hs fun c (_ : c ∈ p.extraClasses) =>
    OpcodeClass.reads_toJson hs (level + 1 + 1) depth c
  have hexemptions := reads_list hs fun e (_ : e ∈ p.exemptions) =>
    Exemption.reads_toJson hs (level + 1 + 1) depth e
  have hfills {members : List (String × Json)} {draft : Policy.Draft}
      (hnext : Fills (Policy.record (m := Json.Source)).fields (depth + 3) (text (level + 1))
        ⟨p.version, p.pointerAuth, p.extraClasses, p.exemptions, none⟩ members draft) :
      Fills (Policy.record (m := Json.Source)).fields (depth + 3) (text (level + 1)) {}
        ([("config_version", .str p.version), ("pointer_auth", .bool p.pointerAuth),
          ("patterns", .arr (p.extraClasses.map (·.toJson))),
          ("exemptions", .arr (p.exemptions.map (·.toJson)))] ++ members) draft :=
    .cons rfl rfl (hversion.field ..) <| .cons rfl rfl (hflag.field ..) <|
      .cons rfl rfl (hclasses.field ..) <| .cons rfl rfl (hexemptions.field ..) hnext
  cases hdisassembler : p.disassembler with
  | none =>
    simp only [Policy.toJson, hdisassembler]
    refine reads_record hs (hfills (.nil _)) ?_
    exact congrArg Except.ok (congrArg (Policy.mk _ _ _ _) hdisassembler.symm)
  | some d =>
    have hname := hs.str (level + 1) d ▸ reads_optionalText (depth + 3) d
    simp only [Policy.toJson, hdisassembler]
    refine reads_record hs (hfills (.cons rfl rfl (hname.field ..) (.nil _))) ?_
    exact congrArg Except.ok (congrArg (Policy.mk _ _ _ _) hdisassembler.symm)

end Policies

namespace Policy

theorem ofJson_compact (p : Policy) : ofJson p.toJson.compact = .ok p := by
  have hrun := (reads_toJson Json.spelling_compact 0 (Json.maxDepth - 4) p).run_eq
  rw [ofJson, hrun]

theorem ofJson_pretty (level : Nat) (p : Policy) : ofJson (p.toJson.pretty level) = .ok p := by
  have hrun := (reads_toJson Json.spelling_pretty level (Json.maxDepth - 4) p).run_eq
  rw [ofJson, hrun]

def rewrite (text : String) : Except PolicyError String :=
  (ofJson text).map fun p => p.toJson.compact

/-- Every policy is read back from what is written for it, on one line or on many. So what is
written for the policy of any text is written again as it stands, and the policy in it, with its
classes and its judgement of findings, is that of the first text. -/
theorem json_roundTrip :
    (∀ (p : Policy) (level : Nat),
      ofJson p.toJson.compact = .ok p ∧ ofJson (p.toJson.pretty level) = .ok p) ∧
    ∀ text written : String, rewrite text = .ok written →
      rewrite written = .ok written ∧ ofJson written = ofJson text ∧
      (ofJson written).map (·.classes) = (ofJson text).map (·.classes) ∧
      (ofJson written).map (fun p => Exemption.isCritical p.exemptions) =
        (ofJson text).map (fun p => Exemption.isCritical p.exemptions) := by
  refine ⟨fun p level => ⟨ofJson_compact p, ofJson_pretty level p⟩, fun text written hwritten => ?_⟩
  cases hread : ofJson text with
  | error e =>
    rw [rewrite, hread] at hwritten
    cases hwritten
  | ok p =>
    obtain rfl : p.toJson.compact = written := by
      rw [rewrite, hread] at hwritten
      exact Except.ok.inj hwritten
    rw [rewrite, ofJson_compact]
    exact ⟨rfl, rfl, rfl, rfl⟩

/-- A text with its fields out of order, numbers in both forms, an escape and fields left out. -/
def handwritten : String :=
  "\x7b \"exemptions\": [\x7b\"symbol\": \"a\", \"max_offset\": \"0x1_0\"\x7d],\n" ++
    "  \"patterns\": [\x7b\"pattern\": \"0xd65f_0000\", \"name\": \"r\\u00e9t\\n\", " ++
    "\"mask\": 4294966303\x7d ] \x7d"

def handwrittenPolicy : Policy where
  version := "0.1.0"
  pointerAuth := false
  extraClasses := [⟨"rét\n", 0xfffffc1f, 0xd65f0000, by decide, by decide⟩]
  exemptions := [⟨"a", 16⟩]
  disassembler := none

theorem json_roundTrip_handwritten :
    ofJson handwritten = .ok handwrittenPolicy ∧
    rewrite handwritten = .ok handwrittenPolicy.toJson.compact ∧
    rewrite handwrittenPolicy.toJson.compact = .ok handwrittenPolicy.toJson.compact ∧
    ofJson handwrittenPolicy.toJson.compact = ofJson handwritten := by
  have hoption : (ofJson handwritten).toOption = some handwrittenPolicy := by decide +kernel
  have hread : ofJson handwritten = .ok handwrittenPolicy := by
    cases h : ofJson handwritten with
    | error e =>
      rw [h] at hoption
      cases hoption
    | ok p =>
      rw [h] at hoption
      exact congrArg Except.ok (Option.some.inj hoption)
  have hwritten : rewrite handwritten = .ok handwrittenPolicy.toJson.compact := by
    rw [rewrite, hread]
    rfl
  obtain ⟨hfixed, hsame, -⟩ := json_roundTrip.2 handwritten _ hwritten
  exact ⟨hread, hwritten, hfixed, hsame⟩

end Policy
end IndirectBranch
