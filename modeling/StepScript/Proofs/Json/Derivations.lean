import StepScript.Proofs.Json.Grammar

/-!
# What the scanner accepts

The scanner finds no fault in a text only if the text is in the grammar. With the converse, the
grammar and the scanner agree on which texts are values, and of which documents.
-/

namespace StepScript.Json

/-- How texts are joined at the start of a list or an object, and behind an element of it. -/
def joined (first : Bool) (texts : List (List Char)) : List Char :=
  if first then [','].intercalate texts else laterTexts texts

/-- The items of a list as they stand in its text, up to the bracket that closes it. -/
def ItemsText (levels : Nat) (first : Bool) (documents : List Document) (text rest : List Char) :
    Prop :=
  ∃ blanks, ∃ items : List (Document × List Char), Blanks blanks ∧
    (∀ item ∈ items, ValueText levels item.1 item.2) ∧ documents = items.map (·.1) ∧
      text = blanks ++ (joined first (items.map (·.2)) ++ ']' :: rest)

/-- The members of an object as they stand in its text, up to the brace that closes it. -/
def MembersText (levels : Nat) (first : Bool) (entries : List (String × Document))
    (text rest : List Char) : Prop :=
  ∃ blanks, ∃ members : List MemberText, Blanks blanks ∧
    (∀ member ∈ members, member.IsSpelled levels) ∧ entries = members.map (·.entry) ∧
      text = blanks ++ (joined first (members.map (·.text)) ++ '\x7d' :: rest)

/-- What the scanners take off a text with some number of calls is in the grammar, unless there is a
fault in what they found. -/
structure ScansGrammar (fuel : Nat) : Prop where
  value : ∀ {levels text document after}, scanValue fuel levels text = (document, after) →
    document.IsSound → ∃ read rest, after = some rest ∧ text = read ++ rest ∧
      ValueText levels document read
  items : ∀ {levels first text documents fault after},
    scanItems fuel levels first text = (documents, fault, after) →
    (Document.array documents fault).IsSound →
      ∃ rest, after = some rest ∧ ItemsText levels first documents text rest
  item : ∀ {levels text documents fault after},
    scanItem fuel levels text = (documents, fault, after) →
    (Document.array documents fault).IsSound →
      ∃ rest document others read later, after = some rest ∧ documents = document :: others ∧
        text = read ++ later ∧ ValueText levels document read ∧
          ItemsText levels false others later rest
  members : ∀ {levels first text entries fault after},
    scanMembers fuel levels first text = (entries, fault, after) →
    (Document.object entries fault).IsSound →
      ∃ rest, after = some rest ∧ MembersText levels first entries text rest
  member : ∀ {levels text entries fault after},
    scanMember fuel levels text = (entries, fault, after) →
    (Document.object entries fault).IsSound →
      ∃ rest, ∃ member : MemberText, ∃ others later, after = some rest ∧
        entries = member.entry :: others ∧ text = member.text ++ later ∧ member.IsSpelled levels ∧
          MembersText levels false others later rest

theorem append_of_scanWord {word text rest : List Char} (h : scanWord word text = .ok rest) :
    text = word ++ rest := by
  induction word generalizing text with
  | nil =>
    cases h
    rfl
  | cons c word ih =>
    cases text with
    | nil => cases h
    | cons d text =>
      rw [scanWord] at h
      split at h
      · next hsame => rw [hsame, ih h, List.cons_append]
      · cases h

theorem append_of_scanNamed {value document : Document} {word text : List Char}
    {after : Option (List Char)} (h : scanNamed value word text = (document, after))
    (hsound : document.IsSound) :
    document = value ∧ ∃ rest, after = some rest ∧ text = word ++ rest := by
  unfold scanNamed at h
  split at h
  · next hword =>
    cases h
    exact ⟨rfl, _, rfl, append_of_scanWord hword⟩
  · cases h
    exact absurd hsound (Document.not_isSound_broken _)

theorem ValueText.behind {levels : Nat} {document : Document} {blanks text : List Char}
    (h : ValueText levels document text) (hblanks : Blanks blanks) :
    ValueText levels document (blanks ++ text) := by
  have hpadded := ValueText.padded hblanks .nil h
  rwa [List.append_nil] at hpadded

theorem ValueText.before {levels : Nat} {document : Document} {blanks text : List Char}
    (h : ValueText levels document text) (hblanks : Blanks blanks) :
    ValueText levels document (text ++ blanks) :=
  ValueText.padded .nil hblanks h

theorem KeyText.behind {key : String} {blanks text : List Char} (h : KeyText key text)
    (hblanks : Blanks blanks) : KeyText key (blanks ++ text) := by
  cases h with
  | quoted hbefore hafter h =>
    rw [← List.append_assoc]
    exact .quoted (hblanks.append hbefore) hafter h

section

variable {levels : Nat} {first : Bool} {blanks text rest : List Char}

theorem ItemsText.behind {documents : List Document}
    (h : ItemsText levels first documents text rest) (hblanks : Blanks blanks) :
    ItemsText levels first documents (blanks ++ text) rest := by
  obtain ⟨inner, items, hinner, hitems, hdocuments, rfl⟩ := h
  exact ⟨blanks ++ inner, items, hblanks.append hinner, hitems, hdocuments, by
    rw [List.append_assoc]⟩

theorem MembersText.behind {entries : List (String × Document)}
    (h : MembersText levels first entries text rest) (hblanks : Blanks blanks) :
    MembersText levels first entries (blanks ++ text) rest := by
  obtain ⟨inner, members, hinner, hmembers, hentries, rfl⟩ := h
  exact ⟨blanks ++ inner, members, hblanks.append hinner, hmembers, hentries, by
    rw [List.append_assoc]⟩

/-- An item stands in front of the others, at the start of a list and behind a comma. -/
theorem ItemsText.cons {documents : List Document} {document : Document} {read : List Char}
    (h : ItemsText levels false documents text rest) (hread : ValueText levels document read) :
    ItemsText levels true (document :: documents) (read ++ text) rest ∧
      ItemsText levels false (document :: documents) (',' :: (read ++ text)) rest := by
  obtain ⟨blanks, items, hblanks, hitems, rfl, rfl⟩ := h
  have hall : ∀ item ∈ (document, read ++ blanks) :: items, ValueText levels item.1 item.2 :=
    List.forall_mem_cons.2 ⟨hread.before hblanks, hitems⟩
  refine ⟨⟨[], _, .nil, hall, rfl, ?_⟩, ⟨[], _, .nil, hall, rfl, ?_⟩⟩
  · simp [joined, intercalate_cons]
  · simp [joined, laterTexts]

theorem MembersText.cons {entries : List (String × Document)} {member : MemberText}
    (h : MembersText levels false entries text rest) (hmember : member.IsSpelled levels) :
    MembersText levels true (member.entry :: entries) (member.text ++ text) rest ∧
      MembersText levels false (member.entry :: entries) (',' :: (member.text ++ text)) rest := by
  obtain ⟨blanks, members, hblanks, hmembers, rfl, rfl⟩ := h
  have hall : ∀ other ∈ { member with valueText := member.valueText ++ blanks } :: members,
      MemberText.IsSpelled levels other :=
    List.forall_mem_cons.2 ⟨⟨hmember.1, hmember.2.before hblanks⟩, hmembers⟩
  refine ⟨⟨[], _, .nil, hall, rfl, ?_⟩, ⟨[], _, .nil, hall, rfl, ?_⟩⟩
  · simp [joined, intercalate_cons, MemberText.text]
  · simp [joined, laterTexts, MemberText.text]

end

section

variable {fuel levels : Nat} {text : List Char} {document : Document} {after : Option (List Char)}

/-- What stands behind the blanks decides. -/
theorem ScansGrammar.value_succ (h : ScansGrammar fuel)
    (hscan : scanValue (fuel + 1) levels text = (document, after)) (hsound : document.IsSound) :
    ∃ read rest, after = some rest ∧ text = read ++ rest ∧ ValueText levels document read := by
  obtain ⟨blanks, hblanks, htext⟩ := exists_blanks text
  -- the value may be read without the blanks in front of it
  suffices hread : ∃ read rest, after = some rest ∧ dropSpace text = read ++ rest ∧
      ValueText levels document read by
    obtain ⟨read, rest, hafter, hdrop, hread⟩ := hread
    exact ⟨blanks ++ read, rest, hafter, by rw [List.append_assoc, ← hdrop, ← htext],
      hread.behind hblanks⟩
  rw [scanValue] at hscan
  have hbroken : ∀ cause, document ≠ .broken cause := by
    rintro cause rfl
    exact Document.not_isSound_broken cause hsound
  split at hscan
  · exact absurd (Prod.mk.inj hscan).1.symm (hbroken _)
  · next c rest hdrop =>
    rw [hdrop]
    split at hscan
    · next hc =>
      obtain ⟨rfl, rest, hafter, rfl⟩ := append_of_scanNamed hscan hsound
      exact ⟨['n', 'u', 'l', 'l'], rest, hafter, by rw [hc]; rfl, .null⟩
    split at hscan
    · next hc =>
      obtain ⟨rfl, rest, hafter, rfl⟩ := append_of_scanNamed hscan hsound
      exact ⟨['t', 'r', 'u', 'e'], rest, hafter, by rw [hc]; rfl, .trueWord⟩
    split at hscan
    · next hc =>
      obtain ⟨rfl, rest, hafter, rfl⟩ := append_of_scanNamed hscan hsound
      exact ⟨['f', 'a', 'l', 's', 'e'], rest, hafter, by rw [hc]; rfl, .falseWord⟩
    split at hscan
    · next hc =>
      split at hscan
      · next value rest hstring =>
        cases hscan
        obtain ⟨read, chars, rfl, hread, rfl⟩ := exists_of_scanString hstring
        exact ⟨'"' :: read, rest, rfl, by rw [hc]; rfl, .string hread⟩
      · exact absurd (Prod.mk.inj hscan).1.symm (hbroken _)
    split at hscan
    · split at hscan
      · next n rest hnumber =>
        cases hscan
        obtain ⟨numeral, read, htext, hnumeral, hread⟩ := exists_of_scanUnsigned hnumber
        by_cases hminus : c = '-'
        · simp only [hminus, if_true, decide_true] at htext hread
          exact ⟨'-' :: read, rest, rfl, by rw [hminus, htext]; rfl,
            .number (.negative hnumeral hread)⟩
        · simp only [hminus, if_false, decide_false] at htext hread
          exact ⟨read, rest, rfl, htext, .number (.unsigned hnumeral hread)⟩
      · exact absurd (Prod.mk.inj hscan).1.symm (hbroken _)
    split at hscan
    · next hc =>
      split at hscan
      · exact absurd (Prod.mk.inj hscan).1.symm (hbroken _)
      · next levels =>
        cases hscan
        obtain ⟨rest, hafter, inner, items, hinner, hitems, hdocuments, rfl⟩ := h.items rfl hsound
        obtain ⟨hfault, -⟩ := Document.isSound_array_iff.1 hsound
        rw [hdocuments, hfault]
        exact ⟨_, rest, hafter, by simp [hc, joined], .array hinner hitems⟩
    split at hscan
    · next hc =>
      split at hscan
      · exact absurd (Prod.mk.inj hscan).1.symm (hbroken _)
      · next levels =>
        cases hscan
        obtain ⟨rest, hafter, inner, members, hinner, hmembers, hentries, rfl⟩ :=
          h.members rfl hsound
        obtain ⟨hfault, -⟩ := Document.isSound_object_iff.1 hsound
        rw [hentries, hfault]
        exact ⟨_, rest, hafter, by simp [hc, joined],
          .object hinner (fun member hmember => (hmembers member hmember).1)
            fun member hmember => (hmembers member hmember).2⟩
    · exact absurd (Prod.mk.inj hscan).1.symm (hbroken _)

theorem ScansGrammar.items_succ (h : ScansGrammar fuel) {first : Bool} {documents : List Document}
    {fault : Option Malformed}
    (hscan : scanItems (fuel + 1) levels first text = (documents, fault, after))
    (hsound : (Document.array documents fault).IsSound) :
    ∃ rest, after = some rest ∧ ItemsText levels first documents text rest := by
  obtain ⟨blanks, hblanks, htext⟩ := exists_blanks text
  rw [htext]
  suffices hitems : ∃ rest, after = some rest ∧
      ItemsText levels first documents (dropSpace text) rest by
    obtain ⟨rest, hafter, hitems⟩ := hitems
    exact ⟨rest, hafter, hitems.behind hblanks⟩
  rw [scanItems] at hscan
  obtain ⟨hfault, hsounds⟩ := Document.isSound_array_iff.1 hsound
  split at hscan
  · cases hscan
    cases hfault
  · next c rest hdrop =>
    rw [hdrop]
    split at hscan
    · next hc =>
      cases hscan
      exact ⟨rest, rfl, [], [], .nil, List.forall_mem_nil _, rfl,
        by cases first <;> simp [hc, joined, laterTexts]⟩
    split at hscan
    · next hfirst =>
      obtain ⟨rest, document, others, read, later, hafter, rfl, hread, hvalue, hlater⟩ :=
        h.item hscan hsound
      rw [hread, hfirst]
      exact ⟨rest, hafter, (hlater.cons hvalue).1⟩
    split at hscan
    · next hfirst hc =>
      obtain ⟨inner, hinner, hrest⟩ := exists_blanks rest
      split at hscan
      · cases hscan
        exact absurd (hsounds _ (List.mem_cons_self ..)) (Document.not_isSound_broken _)
      · cases hscan
        cases hfault
      · obtain ⟨rest, document, others, read, later, hafter, rfl, hread, hvalue, hlater⟩ :=
          h.item hscan hsound
        rw [hc, hrest, hread, Bool.eq_false_iff.2 hfirst, ← List.append_assoc]
        exact ⟨rest, hafter, (hlater.cons (hvalue.behind hinner)).2⟩
    · cases hscan
      cases hfault

theorem ScansGrammar.item_succ (h : ScansGrammar fuel) {documents : List Document}
    {fault : Option Malformed}
    (hscan : scanItem (fuel + 1) levels text = (documents, fault, after))
    (hsound : (Document.array documents fault).IsSound) :
    ∃ rest document others read later, after = some rest ∧ documents = document :: others ∧
      text = read ++ later ∧ ValueText levels document read ∧
        ItemsText levels false others later rest := by
  rw [scanItem] at hscan
  split at hscan
  · next item hvalue =>
    cases hscan
    have hitem := (Document.isSound_array_iff.1 hsound).2 item (List.mem_cons_self ..)
    obtain ⟨_, _, hafter, -⟩ := h.value hvalue hitem
    cases hafter
  · next item later hvalue =>
    cases hscan
    obtain ⟨hfault, hitems⟩ := Document.isSound_array_iff.1 hsound
    obtain ⟨hitem, hothers⟩ := List.forall_mem_cons.1 hitems
    obtain ⟨read, _, ⟨⟩, hread, hvalue⟩ := h.value hvalue hitem
    obtain ⟨rest, hafter, hlater⟩ := h.items rfl (Document.isSound_array_iff.2 ⟨hfault, hothers⟩)
    exact ⟨rest, item, _, read, later, hafter, rfl, hread, hvalue, hlater⟩

theorem ScansGrammar.members_succ (h : ScansGrammar fuel) {first : Bool}
    {entries : List (String × Document)} {fault : Option Malformed}
    (hscan : scanMembers (fuel + 1) levels first text = (entries, fault, after))
    (hsound : (Document.object entries fault).IsSound) :
    ∃ rest, after = some rest ∧ MembersText levels first entries text rest := by
  obtain ⟨blanks, hblanks, htext⟩ := exists_blanks text
  rw [htext]
  suffices hmembers : ∃ rest, after = some rest ∧
      MembersText levels first entries (dropSpace text) rest by
    obtain ⟨rest, hafter, hmembers⟩ := hmembers
    exact ⟨rest, hafter, hmembers.behind hblanks⟩
  rw [scanMembers] at hscan
  have hfault := (Document.isSound_object_iff.1 hsound).1
  split at hscan
  · cases hscan
    cases hfault
  · next c rest hdrop =>
    rw [hdrop]
    split at hscan
    · next hc =>
      cases hscan
      exact ⟨rest, rfl, [], [], .nil, List.forall_mem_nil _, rfl, by
        cases first <;> simp [hc, joined, laterTexts]⟩
    split at hscan
    · next hfirst =>
      obtain ⟨rest, member, others, later, hafter, rfl, hread, hmember, hlater⟩ :=
        h.member hscan hsound
      rw [hread, hfirst]
      exact ⟨rest, hafter, (hlater.cons hmember).1⟩
    split at hscan
    · next hfirst hc =>
      obtain ⟨inner, hinner, hrest⟩ := exists_blanks rest
      split at hscan
      · cases hscan
        cases hfault
      · cases hscan
        cases hfault
      · obtain ⟨rest, member, others, later, hafter, rfl, hread, hmember, hlater⟩ :=
          h.member hscan hsound
        have hspelled : ({ member with keyText := inner ++ member.keyText } : MemberText).IsSpelled
            levels :=
          ⟨hmember.1.behind hinner, hmember.2⟩
        have hcons := (hlater.cons hspelled).2
        rw [hc, hrest, hread, Bool.eq_false_iff.2 hfirst]
        refine ⟨rest, hafter, ?_⟩
        simpa [MemberText.text, MemberText.entry] using hcons
    · cases hscan
      cases hfault

theorem ScansGrammar.member_succ (h : ScansGrammar fuel) {entries : List (String × Document)}
    {fault : Option Malformed}
    (hscan : scanMember (fuel + 1) levels text = (entries, fault, after))
    (hsound : (Document.object entries fault).IsSound) :
    ∃ rest, ∃ member : MemberText, ∃ others later, after = some rest ∧
      entries = member.entry :: others ∧ text = member.text ++ later ∧ member.IsSpelled levels ∧
        MembersText levels false others later rest := by
  obtain ⟨hfault, hvalues⟩ := Document.isSound_object_iff.1 hsound
  unfold scanMember at hscan
  split at hscan
  · split at hscan
    · cases hscan
      cases hfault
    · next key rest hstring =>
      obtain ⟨chars, value, rfl, hchars, rfl⟩ := exists_of_scanString hstring
      obtain ⟨blanks, hblanks, hrest⟩ := exists_blanks rest
      have hkey : ∀ c, c = String.ofList value → KeyText c ('"' :: (chars ++ blanks)) := by
        rintro c rfl
        exact .quoted .nil hblanks (by rwa [String.toList_ofList])
      split at hscan
      · cases hscan
        exact absurd (hvalues _ (List.mem_cons_self ..)) (Document.not_isSound_broken _)
      · next body hcolon =>
        rw [hcolon] at hrest
        split at hscan
        · next found hvalue =>
          cases hscan
          obtain ⟨_, _, hafter, -⟩ := h.value hvalue (hvalues _ (List.mem_cons_self ..))
          cases hafter
        · next found later hvalue =>
          cases hscan
          obtain ⟨hfound, hothers⟩ := List.forall_mem_cons.1 hvalues
          obtain ⟨read, _, ⟨⟩, hread, hvalue⟩ := h.value hvalue hfound
          obtain ⟨rest, hafter, hlater⟩ :=
            h.members rfl (Document.isSound_object_iff.2 ⟨hfault, hothers⟩)
          refine ⟨rest, ⟨String.ofList value, '"' :: (chars ++ blanks), found, read⟩, _, later,
            hafter, rfl, ?_, ⟨hkey _ rfl, hvalue⟩, hlater⟩
          rw [hrest, hread]
          simp [MemberText.text]
      · cases hscan
        exact absurd (hvalues _ (List.mem_cons_self ..)) (Document.not_isSound_broken _)
  · cases hscan
    cases hfault

end

theorem scansGrammar (fuel : Nat) : ScansGrammar fuel := by
  induction fuel with
  | zero =>
    have hlist : ∀ fault, fault ≠ none → ¬ (Document.array [] fault).IsSound :=
      fun fault hfault hsound => hfault (Document.isSound_array_iff.1 hsound).1
    have hobject : ∀ fault, fault ≠ none → ¬ (Document.object [] fault).IsSound :=
      fun fault hfault hsound => hfault (Document.isSound_object_iff.1 hsound).1
    constructor
    case value =>
      intro levels text document after hscan hsound
      rw [scanValue] at hscan
      cases hscan
      exact absurd hsound (Document.not_isSound_broken _)
    case items =>
      intro levels first text documents fault after hscan hsound
      rw [scanItems] at hscan
      cases hscan
      exact absurd hsound (hlist _ (Option.some_ne_none _))
    case item =>
      intro levels text documents fault after hscan hsound
      rw [scanItem] at hscan
      cases hscan
      exact absurd hsound (hlist _ (Option.some_ne_none _))
    case members =>
      intro levels first text entries fault after hscan hsound
      rw [scanMembers] at hscan
      cases hscan
      exact absurd hsound (hobject _ (Option.some_ne_none _))
    case member =>
      intro levels text entries fault after hscan hsound
      rw [scanMember] at hscan
      cases hscan
      exact absurd hsound (hobject _ (Option.some_ne_none _))
  | succ fuel ih =>
    exact ⟨ih.value_succ, ih.items_succ, ih.item_succ, ih.members_succ, ih.member_succ⟩

/-- A text that is scanned without a fault is in the grammar. -/
theorem valueText_of_scan {text : String} {document : Document} (h : scan text = ⟨document, none⟩)
    (hsound : document.IsSound) : ValueText nestingLimit document text.toList := by
  rw [scan] at h
  generalize hscan : scanValue (enoughFuel text.toList) nestingLimit text.toList = scanned at h
  obtain ⟨found, after⟩ := scanned
  obtain ⟨rfl, hafter⟩ := Scan.mk.inj h
  obtain ⟨read, rest, rfl, htext, hread⟩ := (scansGrammar _).value hscan hsound
  -- behind the value there are only blanks
  obtain ⟨blanks, hblanks, hrest⟩ := exists_blanks rest
  have hend : dropSpace rest = [] := by
    by_contra hne
    simp [faultAfter, hne] at hafter
  rw [htext, hrest, hend, List.append_nil]
  exact hread.before hblanks

/-- The texts of the grammar are those in which the scanner finds no fault. -/
theorem valueText_iff {text : String} {document : Document} :
    ValueText nestingLimit document text.toList ↔ scan text = ⟨document, none⟩ ∧ document.IsSound :=
  ⟨fun h => ⟨h.scan_eq, h.isSound⟩, fun h => valueText_of_scan h.1 h.2⟩

/-- A text of an object consists of the texts of its members. -/
theorem exists_objectText {levels : Nat} {found : List (String × Document)} {text : List Char}
    (h : ValueText (levels + 1) (.object found none) text) :
    ∃ members : List (Member levels), ObjectText members text ∧ entries members = found := by
  generalize hlevels : levels + 1 = more at h
  generalize hdocument : Document.object found none = document at h
  induction h with
  | @object inner members blanks hblanks hkeys hvalues _ =>
    cases hlevels
    cases hdocument
    have hall : ∀ member ∈ members, member.IsSpelled levels :=
      fun member hmember => ⟨hkeys member hmember, hvalues member hmember⟩
    have hbraces : ObjectText (members.pmap Member.mk hall) _ := .braces .nil hblanks .nil
    refine ⟨members.pmap Member.mk hall, ?_, by simp [entries, List.map_pmap]⟩
    simpa [List.map_pmap] using hbraces
  | padded hbefore hafter _ ih =>
    obtain ⟨members, hmembers, hfound⟩ := ih hlevels hdocument
    refine ⟨members, ?_, hfound⟩
    cases hmembers with
    | braces hfront hblanks hback =>
      have hbraces : ObjectText members _ :=
        .braces (hbefore.append hfront) hblanks (hback.append hafter)
      simpa using hbraces
  | _ => cases hdocument

end StepScript.Json
