import RCloneCloud.Go.Strings

/-!
# `Auth.Pem` — the repair of a key on one line

A key in an environment variable may have lost its newlines. `ensurePEMNewlines` trims the text and, where it is
one line from a header to a footer, puts the two newlines back; anything else it leaves as it is. It finds the
header by the first dashes after those it starts with, and the footer by the last dashes before an `END`. Keys are
loaded from the repaired text.

`Repaired` lists what the function can have done to a trimmed text: nothing, or newlines put in after a header and
before a footer. `ensurePEMNewlines_repaired` shows that these are all cases, and from it follow that no other
character changes (`Repaired.inserts`) and that a second repair does nothing (`ensurePEMNewlines_idem`). For a text
that is one line of header, body and footer the positions found by the two searches are computed (`indexString_line`,
`lastIndexString_line`), which gives `ensurePEMNewlines_repairs` for any white space around it.
-/

set_option autoImplicit false

namespace RCloneCloud

open Lib

/-! ## The repair -/

/-- The byte of `"\n"`. -/
def newline : UInt8 := 10

/-- `"-----"`. -/
def dashes : GoString := str "-----"

/-- The dashes and the word that a header starts with. -/
def beginMark : GoString := str "-----BEGIN"

/-- The dashes and the word that a footer starts with. -/
def endMark : GoString := str "-----END"

/-- `ensurePEMNewlines`; `none` is a panic. -/
def ensurePEMNewlines (pemStr : GoString) : Option GoString :=
  let pemStr := trimSpace pemStr
  if !hasPrefix pemStr beginMark then some pemStr
  else if containsString pemStr [newline] then some pemStr
  else do
    let rest ← slice pemStr 5 pemStr.length
    match indexString rest dashes with
    | none => some pemStr
    | some firstDashIdx =>
        let headerEnd := 5 + firstDashIdx + 5
        match lastIndexString pemStr endMark with
        | none => some pemStr
        | some footerStart =>
          if footerStart ≤ headerEnd then some pemStr
          else do
            let header ← slice pemStr 0 headerEnd
            let content ← slice pemStr headerEnd footerStart
            let footer ← slice pemStr footerStart pemStr.length
            some (header ++ [newline] ++ content ++ [newline] ++ footer)

/-! ## What it does -/

/-- **The two outcomes**: the trimmed text, or the trimmed text on three lines. -/
inductive Repaired (t : GoString) : GoString → Prop
  | kept : Repaired t t
  | cut (header content footer : GoString) (hsplit : t = header ++ content ++ footer) (hbegin : beginMark <+: header)
      (hend : endMark <+: footer) (hline : newline ∉ t) :
      Repaired t (header ++ [newline] ++ content ++ [newline] ++ footer)

section
variable {t out : GoString}

/-- The search for the end of the header starts behind these ten bytes. -/
theorem length_beginMark : beginMark.length = 10 := rfl

/-- The cut stays within the text. -/
theorem slices_eq {headerEnd footerStart : ℕ} (hlt : headerEnd < footerStart) (hle : footerStart ≤ t.length) :
    slice t 0 headerEnd = some (t.take headerEnd) ∧
      slice t headerEnd footerStart = some ((t.take footerStart).drop headerEnd) ∧
      slice t footerStart t.length = some (t.drop footerStart) := by
  refine ⟨?_, slice_eq (Nat.le_of_lt hlt) hle, ?_⟩
  · rw [slice_eq (Nat.zero_le _) (by omega), List.drop_zero]
  · rw [slice_eq hle (Nat.le_refl _), List.take_length]

/-- **No slice is out of bounds**, and the result is one of the two. -/
theorem ensurePEMNewlines_repaired (s : GoString) :
    ∃ out, ensurePEMNewlines s = some out ∧ Repaired (trimSpace s) out := by
  unfold ensurePEMNewlines
  dsimp only
  -- the checks in the source's order; each one that fails leaves the trimmed text
  generalize trimSpace s = t
  split
  · exact ⟨t, rfl, .kept⟩
  · next hstarts =>
      rw [Bool.not_eq_true', Bool.not_eq_false, hasPrefix_iff] at hstarts
      have hten : 10 ≤ t.length := hstarts.length_le
      split
      · exact ⟨t, rfl, .kept⟩
      · next hnewline =>
          rw [containsString_singleton] at hnewline
          rw [slice_eq (by omega) (Nat.le_refl _), List.take_length]
          dsimp only [Option.bind_eq_bind, Option.bind_some]
          split
          · exact ⟨t, rfl, .kept⟩
          · next firstDashIdx hindex =>
              split
              · exact ⟨t, rfl, .kept⟩
              · next footerStart hlast =>
                  split
                  · exact ⟨t, rfl, .kept⟩
                  · next hgt =>
                      obtain ⟨hle, hfooter⟩ := lastIndexString_some hlast
                      -- the footer starts behind the header's closing dashes, so no slice is out of bounds
                      have hlt : 5 + firstDashIdx + 5 < footerStart := Nat.lt_of_not_le hgt
                      obtain ⟨hheader, hcontent, hrest⟩ := slices_eq hlt hle
                      rw [hheader, hcontent, hrest]
                      refine ⟨_, rfl, .cut _ _ _ ?_ ?_ hfooter hnewline⟩
                      · have htake : t.take (5 + firstDashIdx + 5)
                            = (t.take footerStart).take (5 + firstDashIdx + 5) := by
                          rw [List.take_take, Nat.min_eq_left (Nat.le_of_lt hlt)]
                        rw [htake, List.take_append_drop, List.take_append_drop]
                      · refine List.prefix_of_prefix_length_le hstarts (List.take_prefix _ _) ?_
                        rw [List.length_take, length_beginMark]
                        omega

/-- The repaired text is the trimmed one, with newlines put in or not. -/
theorem ensurePEMNewlines_eq_some {s : GoString} (h : ensurePEMNewlines s = some out) : Repaired (trimSpace s) out := by
  obtain ⟨out', hout', hrepaired⟩ := ensurePEMNewlines_repaired s
  cases h.symm.trans hout'
  exact hrepaired

/-- What is put in is two newlines. -/
theorem Repaired.inserts (h : Repaired t out) :
    t.Sublist out ∧ out.length ≤ t.length + 2 ∧ out.filter (· ≠ newline) = t.filter (· ≠ newline) := by
  cases h with
  | kept => exact ⟨List.Sublist.refl _, Nat.le_add_right _ _, rfl⟩
  | cut header content footer hsplit _ _ _ =>
      subst hsplit
      refine ⟨?_, ?_, ?_⟩
      · refine ((List.sublist_append_left header [newline]).append (List.Sublist.refl content)).append_right footer
          |>.trans ?_
        exact (List.sublist_append_left _ [newline]).append_right footer
      · simp only [List.length_append, List.length_singleton]
        omega
      · simp [List.filter_append]

/-- What starts with a dash does not start with white space. -/
theorem cleanLeft_of_begin {s : GoString} (h : beginMark <+: s) : CleanLeft spaces s := by
  have hhead : ∀ w ∈ spaces, w.head? ≠ some 45 := by decide
  intro w hw hstarts
  obtain ⟨more, rfl⟩ := h
  cases w with
  | nil => exact spaces_ne_nil [] hw rfl
  | cons b rest =>
      have hb : b = 45 := (List.cons_prefix_cons.mp hstarts).1
      exact hhead _ hw (by rw [hb]; rfl)

/-- The text on three lines is trimmed, if the one line was. -/
theorem Repaired.trimmed (h : Repaired t out) (ht : Trimmed t) : Trimmed out := by
  cases h with
  | kept => exact ht
  | cut header content footer hsplit hbegin hend _ =>
      constructor
      · simp only [List.append_assoc]
        exact cleanLeft_of_begin (hbegin.trans (List.prefix_append _ _))
      · -- a white space at its end would stand at the end of the footer, hence of the text
        intro w hw hsuffix
        have hlong : w.length ≤ footer.length := by
          have hw3 := length_space_le w hw
          have hfooter : 8 ≤ footer.length := hend.length_le
          omega
        have hfooter : w <:+ footer := List.suffix_of_suffix_length_le hsuffix (List.suffix_append _ footer) hlong
        refine ht.2 w hw (hfooter.trans ?_)
        rw [hsplit]
        exact List.suffix_append _ footer

/-- **The repair is idempotent.** -/
theorem ensurePEMNewlines_idem {s : GoString} (h : ensurePEMNewlines s = some out) : ensurePEMNewlines out = some out := by
  have hrepaired := ensurePEMNewlines_eq_some h
  have htrim : trimSpace out = out := trimSpace_of_trimmed (hrepaired.trimmed (trimmed_trimSpace s))
  cases hrepaired with
  | kept =>
      unfold ensurePEMNewlines at h ⊢
      rw [htrim]
      exact h
  | cut header content footer hsplit hbegin hend hline =>
      -- it has a newline now
      have hstarts : hasPrefix (header ++ [newline] ++ content ++ [newline] ++ footer) beginMark = true := by
        rw [hasPrefix_iff]
        simp only [List.append_assoc]
        exact hbegin.trans (List.prefix_append _ _)
      have hnewline : containsString (header ++ [newline] ++ content ++ [newline] ++ footer) [newline] = true := by
        rw [containsString_singleton]
        simp
      unfold ensurePEMNewlines
      dsimp only
      rw [htrim, hstarts, hnewline]
      rfl

/-! ## A key on one line -/

/-- `-----BEGIN L-----`. -/
def pemHeader (label : GoString) : GoString := str "-----BEGIN " ++ label ++ dashes

/-- `-----END L-----`. -/
def pemFooter (label : GoString) : GoString := str "-----END " ++ label ++ dashes

/-- Before the first dashes there are none. -/
theorem indexString_dashes {before : GoString} (h : 45 ∉ before) (after : GoString) :
    indexString (before ++ (dashes ++ after)) dashes = some before.length := by
  refine indexString_eq (by simp) ?_ fun j hj hstarts => h ?_
  · rw [List.drop_left]
    exact List.prefix_append dashes after
  · rw [List.drop_append_of_le_length (Nat.le_of_lt hj)] at hstarts
    obtain ⟨b, rest, hb⟩ := List.exists_cons_of_ne_nil (l := before.drop j) (by simpa using hj)
    rw [hb, List.cons_append] at hstarts
    have hdash : 45 = b := (List.cons_prefix_cons.mp hstarts).1
    rw [hdash]
    exact List.mem_of_mem_drop (hb ▸ List.mem_cons_self)

/-- Behind the first dashes of a footer no `END` with dashes before it starts. -/
theorem not_endMark_in_footer {middle : GoString} (hdash : 45 ∉ middle) (hlong : 4 ≤ middle.length) {k : ℕ} (hk : 0 < k) :
    ¬ endMark <+: (dashes ++ (middle ++ dashes)).drop k := by
  rintro ⟨more, hmore⟩
  have hat : ∀ i < 8, (dashes ++ (middle ++ dashes))[k + i]? = endMark[i]? := by
    intro i hi
    have hlen : i < endMark.length := hi
    rw [← List.getElem?_drop, ← hmore, List.getElem?_append_left hlen]
  -- the places of the label
  have hmiddle : ∀ i, 5 ≤ i → i < 5 + middle.length → (dashes ++ (middle ++ dashes))[i]? ≠ some 45 := by
    intro i h5 hlt hsome
    have hlen : dashes.length = 5 := rfl
    rw [List.getElem?_append_right (by omega), hlen, List.getElem?_append_left (by omega)] at hsome
    exact hdash (List.mem_of_getElem? hsome)
  have hfirst : (dashes ++ (middle ++ dashes))[k]? = some 45 := hat 0 (by omega)
  have hfifth : (dashes ++ (middle ++ dashes))[k + 4]? = some 45 := hat 4 (by omega)
  have hletter : (dashes ++ (middle ++ dashes))[k + 5]? = some 69 := hat 5 (by omega)
  have hbound : k + 5 < 10 + middle.length := by
    obtain ⟨hlt, -⟩ := List.getElem?_eq_some_iff.mp hletter
    have hlen : dashes.length = 5 := rfl
    rw [List.length_append, List.length_append, hlen] at hlt
    omega
  by_cases hin : k + 4 < 5 + middle.length
  · exact hmiddle (k + 4) (by omega) hin hfifth
  · exact hmiddle k (by omega) (by omega) hfirst

/-- The last `-----END` of a text that ends in a footer is where the footer starts; nothing later in it has five
dashes before an `END`. -/
theorem lastIndexString_endMark {middle : GoString} (hdash : 45 ∉ middle) (hlong : 4 ≤ middle.length)
    (hend : str "END" <+: middle) (before : GoString) :
    lastIndexString (before ++ (dashes ++ (middle ++ dashes))) endMark = some before.length := by
  refine lastIndexString_eq (by simp) ?_ fun j hj hle => ?_
  · rw [List.drop_left]
    obtain ⟨more, rfl⟩ := hend
    have hmark : endMark = dashes ++ str "END" := by decide
    rw [hmark, List.append_assoc]
    exact (List.prefix_append_right_inj dashes).mpr (List.prefix_append _ _)
  · obtain ⟨k, rfl⟩ : ∃ k, j = before.length + k := ⟨j - before.length, by omega⟩
    rw [← List.drop_drop, List.drop_left]
    exact not_endMark_in_footer hdash hlong (by omega)

/-- The parts of a key on one line. -/
theorem pemHeader_eq (label : GoString) : pemHeader label = dashes ++ (str "BEGIN " ++ label ++ dashes) := by
  have hbegin : str "-----BEGIN " = dashes ++ str "BEGIN " := by decide
  rw [pemHeader, hbegin, List.append_assoc, List.append_assoc, List.append_assoc]

/-- The footer as dashes, a word with no dash and dashes. -/
theorem pemFooter_eq (label : GoString) : pemFooter label = dashes ++ (str "END " ++ label ++ dashes) := by
  have hend : str "-----END " = dashes ++ str "END " := by decide
  rw [pemFooter, hend, List.append_assoc, List.append_assoc, List.append_assoc]

/-- A header starts with the mark that the function looks for. -/
theorem beginMark_pemHeader (label : GoString) : beginMark <+: pemHeader label := by
  have hbegin : str "-----BEGIN " = beginMark ++ str " " := by decide
  rw [pemHeader, hbegin, List.append_assoc, List.append_assoc]
  exact List.prefix_append _ _

/-- What ends with a dash does not end with white space. -/
theorem cleanRight_of_dashes (s : GoString) : CleanRight spaces (s ++ dashes) := by
  have hlast : ∀ w ∈ spaces, w.getLast? ≠ some 45 := by decide
  rintro w hw ⟨before, hbefore⟩
  have hdash : (s ++ dashes).getLast? = some 45 := by
    rw [List.getLast?_append_of_ne_nil s (by decide)]
    rfl
  rw [← hbefore, List.getLast?_append_of_ne_nil before (spaces_ne_nil w hw)] at hdash
  exact hlast w hw hdash

/-- **The cut**: where the header ends at the first dashes and the footer starts at the last mark. -/
theorem ensurePEMNewlines_cut {s header content footer : GoString} {firstDashIdx : ℕ}
    (htrim : trimSpace s = header ++ content ++ footer) (hbegin : beginMark <+: header)
    (hline : newline ∉ header ++ content ++ footer)
    (hindex : indexString ((header ++ content ++ footer).drop 5) dashes = some firstDashIdx)
    (hheader : 5 + firstDashIdx + 5 = header.length)
    (hlast : lastIndexString (header ++ content ++ footer) endMark = some (header ++ content).length)
    (hcontent : content ≠ []) :
    ensurePEMNewlines s = some (header ++ [newline] ++ content ++ [newline] ++ footer) := by
  have hstarts : hasPrefix (header ++ content ++ footer) beginMark = true := by
    rw [hasPrefix_iff, List.append_assoc]
    exact hbegin.trans (List.prefix_append _ _)
  have hnone : containsString (header ++ content ++ footer) [newline] = false := by
    rw [Bool.eq_false_iff]
    exact mt containsString_singleton.mp hline
  have hlt : header.length < (header ++ content).length := by
    have hpos := List.length_pos_of_ne_nil hcontent
    rw [List.length_append]
    omega
  have hle : (header ++ content).length ≤ (header ++ content ++ footer).length :=
    (List.prefix_append (header ++ content) footer).length_le
  obtain ⟨hheaderslice, hcontentslice, hfooterslice⟩ := slices_eq hlt hle
  unfold ensurePEMNewlines
  dsimp only
  rw [htrim, hstarts, hnone, slice_eq (by omega) (Nat.le_refl _), List.take_length]
  dsimp only [Bool.not_true, Option.bind_eq_bind, Option.bind_some]
  rw [hindex]
  dsimp only
  rw [hlast]
  dsimp only
  rw [hheader, if_neg (Nat.not_le_of_lt hlt), hheaderslice, hcontentslice, hfooterslice]
  dsimp only [Option.bind_some]
  rw [List.take_left, List.drop_left, List.drop_left]
  have htake : (header ++ content ++ footer).take header.length = header := by
    rw [List.append_assoc, List.take_left]
  rw [htake]
  rfl

/-! ## The line before the repair -/

/-- A header does not begin with white space. -/
theorem cleanLeft_pemHeader (label more : GoString) : CleanLeft spaces (pemHeader label ++ more) :=
  cleanLeft_of_begin ((beginMark_pemHeader label).trans (List.prefix_append _ _))

/-- The line itself has no white space at its ends, so trimming takes off what is around it and no more. -/
theorem trimmed_line (label body : GoString) : Trimmed (pemHeader label ++ body ++ pemFooter label) := by
  constructor
  · rw [List.append_assoc]
    exact cleanLeft_pemHeader label _
  · rw [pemFooter, ← List.append_assoc]
    exact cleanRight_of_dashes _

/-- Trimming leaves exactly the line, whatever white space stood before and after. -/
theorem trimSpace_line {left right : List Char} (hleft : ∀ c ∈ left, c ∈ spaceRunes) (hright : ∀ c ∈ right, c ∈ spaceRunes)
    (label body : GoString) :
    trimSpace (utf8Encode left ++ (pemHeader label ++ body ++ pemFooter label) ++ utf8Encode right) =
      pemHeader label ++ body ++ pemFooter label := by
  refine trimSpace_surrounded hleft hright (trimmed_line label body) ?_
  rw [List.append_assoc, List.append_assoc]
  exact cleanLeft_pemHeader label _

/-- A line made of a label and a body without newlines has none. -/
theorem newline_not_mem_line {label body : GoString} (hlabel : newline ∉ label) (hbody : newline ∉ body) :
    newline ∉ pemHeader label ++ body ++ pemFooter label := by
  have hfixed : newline ∉ str "-----BEGIN " ∧ newline ∉ dashes ∧ newline ∉ str "-----END " := by decide
  simp only [pemHeader, pemFooter, List.mem_append, hfixed.1, hfixed.2.1, hfixed.2.2, hlabel, hbody, or_self,
    not_false_eq_true]

/-- The header ends at the first dashes behind those that it starts with. -/
theorem indexString_line {label : GoString} (hlabel : 45 ∉ label) (body : GoString) :
    indexString ((pemHeader label ++ body ++ pemFooter label).drop 5) dashes = some (str "BEGIN " ++ label).length := by
  have hdashes : dashes.length = 5 := rfl
  have hdrop : (pemHeader label ++ body ++ pemFooter label).drop 5
      = (str "BEGIN " ++ label) ++ (dashes ++ (body ++ pemFooter label)) := by
    rw [pemHeader_eq, ← hdashes, List.append_assoc, List.append_assoc, List.drop_left]
    simp only [List.append_assoc]
  have hbegin : 45 ∉ str "BEGIN " := by decide
  rw [hdrop]
  refine indexString_dashes ?_ _
  simp only [List.mem_append, hbegin, hlabel, or_self, not_false_eq_true]

/-- The footer starts at the last mark. -/
theorem lastIndexString_line {label : GoString} (hlabel : 45 ∉ label) (body : GoString) :
    lastIndexString (pemHeader label ++ body ++ pemFooter label) endMark = some (pemHeader label ++ body).length := by
  have hend : 45 ∉ str "END " := by decide
  have hmark : str "END " = str "END" ++ str " " := by decide
  rw [pemFooter_eq]
  refine lastIndexString_endMark ?_ ?_ ?_ (pemHeader label ++ body)
  · simp only [List.mem_append, hend, hlabel, or_self, not_false_eq_true]
  · have hlen : (str "END ").length = 4 := rfl
    rw [List.length_append]
    omega
  · rw [hmark, List.append_assoc]
    exact List.prefix_append _ _

/-- **A key on one line gets its newlines**: what stands between header and footer is put on a line of its own. -/
theorem ensurePEMNewlines_one_line {left right : List Char} {label body : GoString} (hleft : ∀ c ∈ left, c ∈ spaceRunes)
    (hright : ∀ c ∈ right, c ∈ spaceRunes) (hlabel : 45 ∉ label) (hlabel' : newline ∉ label) (hbody : body ≠ [])
    (hbody' : newline ∉ body) :
    ensurePEMNewlines (utf8Encode left ++ (pemHeader label ++ body ++ pemFooter label) ++ utf8Encode right) =
      some (pemHeader label ++ [newline] ++ body ++ [newline] ++ pemFooter label) := by
  refine ensurePEMNewlines_cut ?_ (beginMark_pemHeader label) (newline_not_mem_line hlabel' hbody')
    (indexString_line hlabel body) ?_ (lastIndexString_line hlabel body) hbody
  · exact trimSpace_line hleft hright label body
  · have hdashes : dashes.length = 5 := rfl
    rw [pemHeader_eq]
    simp only [List.length_append, hdashes]
    omega

/-- **The repair is safe, lossless and complete.** -/
theorem ensurePEMNewlines_repairs :
    (∀ s, ∃ out, ensurePEMNewlines s = some out ∧ ensurePEMNewlines out = some out ∧
      (trimSpace s).Sublist out ∧ out.length ≤ (trimSpace s).length + 2 ∧
      out.filter (· ≠ newline) = (trimSpace s).filter (· ≠ newline)) ∧
    ∀ (left right : List Char) (label body : GoString), (∀ c ∈ left, c ∈ spaceRunes) → (∀ c ∈ right, c ∈ spaceRunes) →
      45 ∉ label → newline ∉ label → body ≠ [] → newline ∉ body →
      ensurePEMNewlines (utf8Encode left ++ (pemHeader label ++ body ++ pemFooter label) ++ utf8Encode right) =
        some (pemHeader label ++ [newline] ++ body ++ [newline] ++ pemFooter label) := by
  refine ⟨fun s => ?_, fun left right label body hleft hright hlabel hlabel' hbody hbody' => ?_⟩
  · obtain ⟨out, hout, hrepaired⟩ := ensurePEMNewlines_repaired s
    exact ⟨out, hout, ensurePEMNewlines_idem hout, hrepaired.inserts⟩
  · exact ensurePEMNewlines_one_line hleft hright hlabel hlabel' hbody hbody'

end

/-- A public key on one line, with a blank before and a no-break space and a newline after it. -/
theorem ensurePEMNewlines_repairs_key :
    ensurePEMNewlines (utf8Encode [' '] ++ (pemHeader (str "PUBLIC KEY") ++ str "MCowBQYDK2VwAyEA" ++
        pemFooter (str "PUBLIC KEY")) ++ utf8Encode ['\u00a0', '\n']) =
      some (str "-----BEGIN PUBLIC KEY-----\nMCowBQYDK2VwAyEA\n-----END PUBLIC KEY-----") := by
  refine (ensurePEMNewlines_repairs.2 [' '] ['\u00a0', '\n'] (str "PUBLIC KEY") (str "MCowBQYDK2VwAyEA")
    (by simp [spaceRunes]) (by simp [spaceRunes]) (by decide) (by decide) (by decide) (by decide)).trans ?_
  decide

/-! ## Loading a key -/

/-- What `encoding/pem` and `crypto/x509` make of bytes; `decode` gives the bytes of the first block, if there is
    one. -/
structure KeyParsers (Public Private : Type) where
  decode : GoString → Option Bytes
  parsePKIXPublicKey : Bytes → Except GoError Public
  parsePKCS8PrivateKey : Bytes → Except GoError Private
  parsePKCS1PrivateKey : Bytes → Except GoError Private

section
variable {Public Private K : Type} {s out : GoString}

/-- What `LoadPublicKey` and `LoadPrivateKey` share; `none` is a panic. -/
def loadKey (decode : GoString → Option Bytes) (unset invalid : String) (parse : Bytes → Except GoError K)
    (pemContent : GoString) : Option (Except GoError K) :=
  if pemContent = [] then some (.error (.errorf unset []))
  else do
    let pemContent ← ensurePEMNewlines pemContent
    match decode pemContent with
    | none => some (.error (.errorf invalid []))
    | some block => some (parse block)

/-- Public keys go through the repair and then the parsers for them, in the source's order. -/
def loadPublicKey (P : KeyParsers Public Private) : GoString → Option (Except GoError Public) :=
  loadKey P.decode "JWT_PUBLIC_KEY is not set" "public key is not valid PEM" fun block =>
    match P.parsePKIXPublicKey block with
    | .error err => .error (.wrapf "parse public key: %w" [] err)
    | .ok pub => .ok pub

/-- Private keys go through the repair and then the parsers for them. -/
def loadPrivateKey (P : KeyParsers Public Private) : GoString → Option (Except GoError Private) :=
  loadKey P.decode "JWT_PRIVATE_KEY is not set" "private key is not valid PEM" fun block =>
    match P.parsePKCS8PrivateKey block with
    | .error err =>
      -- older RSA keys; the error that is reported is the first one
      match P.parsePKCS1PrivateKey block with
      | .ok rsaKey => .ok rsaKey
      | .error _ => .error (.wrapf "parse private key: %w" [] err)
    | .ok key => .ok key

/-- A text that is not blank is repaired to one that is not empty. -/
theorem ensurePEMNewlines_ne_nil (h : ensurePEMNewlines s = some out) (hblank : trimSpace s ≠ []) : out ≠ [] := by
  rintro rfl
  exact hblank (List.sublist_nil.mp (ensurePEMNewlines_eq_some h).inserts.1)

/-- **A key and its repaired text are the same key.** -/
theorem loadKey_repaired (decode : GoString → Option Bytes) (unset invalid : String) (parse : Bytes → Except GoError K)
    (h : ensurePEMNewlines s = some out) (hblank : trimSpace s ≠ []) :
    loadKey decode unset invalid parse s = loadKey decode unset invalid parse out := by
  have hs : s ≠ [] := by
    rintro rfl
    exact hblank rfl
  unfold loadKey
  rw [if_neg hs, if_neg (ensurePEMNewlines_ne_nil h hblank), h, ensurePEMNewlines_idem h]

/-- **A key on one line loads as the key on its three lines does**, with any white space around it. -/
theorem loadKey_one_line (P : KeyParsers Public Private) {left right : List Char} {label body : GoString}
    (hleft : ∀ c ∈ left, c ∈ spaceRunes) (hright : ∀ c ∈ right, c ∈ spaceRunes) (hlabel : 45 ∉ label)
    (hlabel' : newline ∉ label) (hbody : body ≠ []) (hbody' : newline ∉ body) :
    let line := utf8Encode left ++ (pemHeader label ++ body ++ pemFooter label) ++ utf8Encode right
    let lines := pemHeader label ++ [newline] ++ body ++ [newline] ++ pemFooter label
    loadPublicKey P line = loadPublicKey P lines ∧ loadPrivateKey P line = loadPrivateKey P lines := by
  have hrepair := ensurePEMNewlines_one_line hleft hright hlabel hlabel' hbody hbody'
  have htrim : trimSpace (utf8Encode left ++ (pemHeader label ++ body ++ pemFooter label) ++ utf8Encode right) ≠ [] := by
    rw [trimSpace_line hleft hright]
    intro hnil
    exact hbody (List.append_eq_nil_iff.mp (List.append_eq_nil_iff.mp hnil).1).2
  exact ⟨loadKey_repaired _ _ _ _ hrepair htrim, loadKey_repaired _ _ _ _ hrepair htrim⟩

end

/-- Parsers that take the body of a block as it stands for the key. -/
def textParsers : KeyParsers GoString GoString where
  decode s := ((s.splitOn newline)[1]?)
  parsePKIXPublicKey block := .ok block
  parsePKCS8PrivateKey block := .ok block
  parsePKCS1PrivateKey block := .ok block

/-- The sample's parser keeps the body; the key is loaded from the one line. -/
theorem loadKey_one_line_key :
    loadPublicKey textParsers (utf8Encode [' '] ++ (pemHeader (str "PUBLIC KEY") ++ str "MCowBQYDK2VwAyEA" ++
        pemFooter (str "PUBLIC KEY")) ++ utf8Encode ['\n']) = some (.ok (str "MCowBQYDK2VwAyEA")) := by
  have hleft : ∀ c ∈ [' '], c ∈ spaceRunes := by simp [spaceRunes]
  have hright : ∀ c ∈ ['\n'], c ∈ spaceRunes := by simp [spaceRunes]
  have hlabel : 45 ∉ str "PUBLIC KEY" ∧ newline ∉ str "PUBLIC KEY" := by decide
  have hbody : str "MCowBQYDK2VwAyEA" ≠ [] ∧ newline ∉ str "MCowBQYDK2VwAyEA" := by decide
  rw [(loadKey_one_line textParsers hleft hright hlabel.1 hlabel.2 hbody.1 hbody.2).1]
  decide

end RCloneCloud
