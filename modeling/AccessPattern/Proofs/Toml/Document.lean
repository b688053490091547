import AccessPattern.Proofs.Toml.Keys
import AccessPattern.Toml.Document

/-!
# Keys of TOML documents

No table of a document has a key twice. All tables come about by changes that keep keys distinct,
the inline tables in values among them; scalars are no tables, and the tables in arrays cannot be
reached by a key.
-/

namespace AccessPattern.Toml

variable {node : Node} {text rest : List Char}

/-- An integer that fits is no table. -/
theorem distinct_of_fitting? {value : Int} (h : fitting? value = some node) : node.Distinct := by
  unfold fitting? at h
  split at h
  · exact Option.some.inj h ▸ trivial
  · contradiction

/-- A number in a base is no table. -/
theorem distinct_of_scanBased {base : Nat} {isDigit : Char → Bool}
    (h : scanBased base isDigit text = some (node, rest)) : node.Distinct := by
  obtain ⟨⟨digits, after⟩, -, hfitting⟩ := Option.bind_eq_some_iff.mp h
  obtain ⟨number, hnumber, hend⟩ := Option.bind_eq_some_iff.mp hfitting
  obtain ⟨rfl, rfl⟩ := Prod.mk.inj (Option.some.inj hend)
  exact distinct_of_fitting? hnumber

/-- An integer is no table. -/
theorem distinct_of_scanInteger (h : scanInteger text = some (node, rest)) : node.Distinct := by
  unfold scanInteger at h
  split at h
  · exact distinct_of_scanBased h
  · exact distinct_of_scanBased h
  · exact distinct_of_scanBased h
  · obtain ⟨⟨digits, after⟩, -, hfitting⟩ := Option.bind_eq_some_iff.mp h
    obtain ⟨number, hnumber, hend⟩ := Option.bind_eq_some_iff.mp hfitting
    obtain ⟨rfl, rfl⟩ := Prod.mk.inj (Option.some.inj hend)
    exact distinct_of_fitting? hnumber

/-- A float is no table. -/
theorem distinct_of_scanDecimalFloat (h : scanDecimalFloat text = some (node, rest)) :
    node.Distinct := by
  obtain ⟨⟨whole, rest₁⟩, -, h⟩ := Option.bind_eq_some_iff.mp h
  obtain ⟨⟨fraction, rest₂⟩, -, h⟩ := Option.bind_eq_some_iff.mp h
  obtain ⟨⟨exponent, rest₃⟩, -, h⟩ := Option.bind_eq_some_iff.mp h
  rw [Option.ite_none_left_eq_some, Option.ite_none_left_eq_some] at h
  obtain ⟨rfl, rfl⟩ := Prod.mk.inj (Option.some.inj h.2.2)
  trivial

/-- Infinity is no table. -/
theorem distinct_of_scanSpecialFloat (h : scanSpecialFloat text = some (node, rest)) :
    node.Distinct := by
  unfold scanSpecialFloat at h
  split at h
  · obtain ⟨rfl, rfl⟩ := Prod.mk.inj (Option.some.inj h)
    trivial
  · obtain ⟨rfl, rfl⟩ := Prod.mk.inj (Option.some.inj h)
    trivial
  · contradiction

/-- A date is no table. -/
theorem distinct_of_scanDateTime (h : scanDateTime text = some (node, rest)) : node.Distinct := by
  unfold scanDateTime at h
  split at h
  · obtain ⟨after, -, hend⟩ := Option.map_eq_some_iff.mp h
    obtain ⟨rfl, rfl⟩ := Prod.mk.inj hend
    trivial
  · obtain ⟨after, -, hend⟩ := Option.map_eq_some_iff.mp h
    obtain ⟨rfl, rfl⟩ := Prod.mk.inj hend
    trivial

/-- A scalar is no table. -/
theorem distinct_of_scanScalar (h : scanScalar text = some (node, rest)) : node.Distinct := by
  have htext {text : List Char} (h : scanScalar.scanText text = some (node, rest)) :
      node.Distinct := by
    obtain ⟨⟨chars, after⟩, -, hend⟩ := Option.map_eq_some_iff.mp h
    obtain ⟨rfl, rfl⟩ := Prod.mk.inj hend
    trivial
  unfold scanScalar at h
  split at h
  · obtain ⟨rfl, rfl⟩ := Prod.mk.inj (Option.some.inj h)
    trivial
  · obtain ⟨rfl, rfl⟩ := Prod.mk.inj (Option.some.inj h)
    trivial
  · exact htext h
  · exact htext h
  · simp only [scanNumeral, Option.orElse_eq_orElse, Option.orElse_eq_or, Option.or_eq_some_iff] at h
    rcases h with hdate | ⟨-, hfloat | ⟨-, hspecial | ⟨-, hinteger⟩⟩⟩
    · exact distinct_of_scanDateTime hdate
    · exact distinct_of_scanDecimalFloat hfloat
    · exact distinct_of_scanSpecialFloat hspecial
    · exact distinct_of_scanInteger hinteger

/-- What separated elements have in common when every element has it. -/
theorem forall_mem_of_scanSeparated {α : Type} {P : α → Prop} {separator : Char}
    {element : List Char → Option (α × List Char)}
    (helement : ∀ {text found rest}, element text = some (found, rest) → P found)
    {steps : Nat} {found : List α}
    (h : scanSeparated separator element steps text = some (found, rest)) :
    ∀ x ∈ found, P x := by
  induction steps generalizing text found rest with
  | zero => contradiction
  | succ steps ih =>
    obtain ⟨⟨first, after⟩, hfirst, hrest⟩ := Option.bind_eq_some_iff.mp h
    replace hfirst : P first := helement hfirst
    dsimp only at hrest
    split at hrest
    · split at hrest
      · obtain ⟨⟨others, last⟩, hothers, hend⟩ := Option.bind_eq_some_iff.mp hrest
        obtain ⟨rfl, rfl⟩ := Prod.mk.inj (Option.some.inj hend)
        exact List.forall_mem_cons.mpr ⟨hfirst, ih hothers⟩
      · obtain ⟨rfl, rfl⟩ := Prod.mk.inj (Option.some.inj hrest)
        exact List.forall_mem_singleton.mpr hfirst
    · obtain ⟨rfl, rfl⟩ := Prod.mk.inj (Option.some.inj hrest)
      exact List.forall_mem_singleton.mpr hfirst

/-- The value of a pair is one that was read. -/
theorem distinct_of_scanPair {value : List Char → Option (Node × List Char)}
    (hvalue : ∀ {text node rest}, value text = some (node, rest) → node.Distinct)
    {pair : Pair} (h : scanPair value text = some (pair, rest)) : pair.value.Distinct := by
  obtain ⟨⟨⟨path, key⟩, rest₁⟩, -, h⟩ := Option.bind_eq_some_iff.mp h
  obtain ⟨rest₂, -, h⟩ := Option.bind_eq_some_iff.mp h
  obtain ⟨⟨node, rest₃⟩, hnode, hend⟩ := Option.bind_eq_some_iff.mp h
  obtain ⟨rfl, rfl⟩ := Prod.mk.inj (Option.some.inj hend)
  exact hvalue hnode

/-- The values of the pairs of an inline table were read. -/
theorem distinct_of_scanInlinePairs {pair : List Char → Option (Pair × List Char)}
    (hpair : ∀ {text found rest}, pair text = some (found, rest) → found.value.Distinct)
    {pairs : List Pair} (h : scanInlinePairs pair text = some (pairs, rest)) :
    ∀ found ∈ pairs, found.value.Distinct := by
  unfold scanInlinePairs at h
  split at h
  · obtain ⟨rfl, rfl⟩ := Prod.mk.inj (Option.some.inj h)
    exact List.forall_mem_nil _
  · obtain ⟨⟨found, after⟩, hfound, hrest⟩ := Option.bind_eq_some_iff.mp h
    obtain ⟨last, -, hend⟩ := Option.bind_eq_some_iff.mp hrest
    obtain ⟨rfl, rfl⟩ := Prod.mk.inj (Option.some.inj hend)
    exact forall_mem_of_scanSeparated hpair hfound

/-- Values have distinct keys at all levels. The induction is over the levels to which they nest. -/
theorem distinct_of_scanValue {levels : Nat} (h : scanValue levels text = some (node, rest)) :
    node.Distinct := by
  induction levels generalizing text node rest with
  | zero => exact distinct_of_scanScalar (by simpa only [scanValue] using h)
  | succ levels ih =>
    unfold scanValue at h
    split at h
    · obtain ⟨⟨items, after⟩, -, hend⟩ := Option.bind_eq_some_iff.mp h
      obtain ⟨rfl, rfl⟩ := Prod.mk.inj (Option.some.inj hend)
      trivial
    · next below inside hlevels =>
      obtain rfl := Nat.succ.inj hlevels
      obtain ⟨⟨pairs, after⟩, hpairs, hrest⟩ := Option.bind_eq_some_iff.mp h
      obtain ⟨entries, hentries, hend⟩ := Option.bind_eq_some_iff.mp hrest
      obtain ⟨rfl, rfl⟩ := Prod.mk.inj (Option.some.inj hend)
      refine Entries.distinct_addPairs (distinct_of_scanInlinePairs ?_ hpairs)
        Entries.distinct_nil hentries
      intro text found rest hfound
      obtain ⟨⟨pair, blank⟩, hpair, hend⟩ := Option.bind_eq_some_iff.mp hfound
      obtain ⟨rfl, rfl⟩ := Prod.mk.inj (Option.some.inj hend)
      exact distinct_of_scanPair ih hpair
    · exact distinct_of_scanScalar h

/-- What a line brings into a document has distinct keys. -/
def Line.Distinct : Line → Prop
  | .pair added => added.value.Distinct
  | .header .. | .element .. => True

/-- A line brings distinct keys. -/
theorem distinct_of_scanLine {line : Line} (h : scanLine text = some (line, rest)) :
    line.Distinct := by
  unfold scanLine at h
  split at h
  · obtain ⟨⟨⟨path, key⟩, rest₁⟩, -, h⟩ := Option.bind_eq_some_iff.mp h
    obtain ⟨rest₂, -, h⟩ := Option.bind_eq_some_iff.mp h
    obtain ⟨rest₃, -, h⟩ := Option.bind_eq_some_iff.mp h
    obtain ⟨rest₄, -, hend⟩ := Option.bind_eq_some_iff.mp h
    obtain ⟨rfl, rfl⟩ := Prod.mk.inj (Option.some.inj hend)
    trivial
  · obtain ⟨⟨⟨path, key⟩, rest₁⟩, -, h⟩ := Option.bind_eq_some_iff.mp h
    obtain ⟨rest₂, -, h⟩ := Option.bind_eq_some_iff.mp h
    obtain ⟨rest₃, -, hend⟩ := Option.bind_eq_some_iff.mp h
    obtain ⟨rfl, rfl⟩ := Prod.mk.inj (Option.some.inj hend)
    trivial
  · obtain ⟨⟨pair, rest₁⟩, hpair, h⟩ := Option.bind_eq_some_iff.mp h
    obtain ⟨rest₂, -, hend⟩ := Option.bind_eq_some_iff.mp h
    obtain ⟨rfl, rfl⟩ := Prod.mk.inj (Option.some.inj hend)
    exact distinct_of_scanPair distinct_of_scanValue hpair

/-- The lines of a text bring distinct keys. -/
theorem distinct_of_scanLines {steps : Nat} {lines : List Line}
    (h : scanLines steps text = some lines) : ∀ line ∈ lines, line.Distinct := by
  induction steps generalizing text lines with
  | zero => contradiction
  | succ steps ih =>
    unfold scanLines at h
    split at h
    · exact Option.some.inj h ▸ List.forall_mem_nil _
    · obtain ⟨after, -, hlines⟩ := Option.bind_eq_some_iff.mp h
      exact ih hlines
    · split at h
      · exact ih h
      · obtain ⟨⟨line, after⟩, hline, hlater⟩ := Option.bind_eq_some_iff.mp h
        obtain ⟨others, hothers, hend⟩ := Option.bind_eq_some_iff.mp hlater
        rw [← Option.some.inj hend]
        exact List.forall_mem_cons.mpr ⟨distinct_of_scanLine hline, ih hothers⟩

/-- The pairs before a header and the lines from it on are those of the lines. -/
theorem distinct_spanPairs {lines : List Line} (h : ∀ line ∈ lines, line.Distinct) :
    (∀ pair ∈ (spanPairs lines).1, pair.value.Distinct) ∧
      ∀ line ∈ (spanPairs lines).2, line.Distinct := by
  induction lines with
  | nil => exact ⟨List.forall_mem_nil _, h⟩
  | cons line lines ih =>
    rw [List.forall_mem_cons] at h
    cases line with
    | pair pair => exact ⟨List.forall_mem_cons.mpr ⟨h.1, (ih h.2).1⟩, (ih h.2).2⟩
    | header path key => exact ⟨List.forall_mem_nil _, List.forall_mem_cons.mpr h⟩
    | element path key => exact ⟨List.forall_mem_nil _, List.forall_mem_cons.mpr h⟩

/-- Adding the tables of headers keeps keys distinct. -/
theorem distinct_of_addSections {steps : Nat} {entries final : Entries} {lines : List Line}
    (hlines : ∀ line ∈ lines, line.Distinct) (hentries : Entries.Distinct entries)
    (h : addSections steps entries lines = some final) : Entries.Distinct final := by
  induction steps generalizing entries lines with
  | zero =>
    cases lines with
    | nil => exact Option.some.inj h ▸ hentries
    | cons line lines => contradiction
  | succ steps ih =>
    unfold addSections at h
    split at h
    · next remaining path key later hsteps =>
      obtain rfl := Nat.succ.inj hsteps
      obtain ⟨hpairs, hlater⟩ := distinct_spanPairs (List.forall_mem_cons.mp hlines).2
      obtain ⟨changed, hchanged, hrest⟩ := Option.bind_eq_some_iff.mp h
      exact ih hlater (Entries.distinct_updateAt
        (fun hinner hopen => Entries.distinct_openTable hpairs hinner hopen) hentries hchanged) hrest
    · next remaining path key later hsteps =>
      obtain rfl := Nat.succ.inj hsteps
      obtain ⟨hpairs, hlater⟩ := distinct_spanPairs (List.forall_mem_cons.mp hlines).2
      obtain ⟨changed, hchanged, hrest⟩ := Option.bind_eq_some_iff.mp h
      exact ih hlater (Entries.distinct_updateAt
        (fun hinner happend => Entries.distinct_appendTable hpairs hinner happend) hentries
          hchanged) hrest
    · exact Option.some.inj h ▸ hentries
    · contradiction

/-- No table of a document has a key twice. -/
theorem distinct_of_read? {document : String} {entries : Entries}
    (h : read? document = some entries) : Entries.Distinct entries := by
  obtain ⟨lines, hlines, hentries⟩ := Option.bind_eq_some_iff.mp h
  obtain ⟨hpairs, hlater⟩ := distinct_spanPairs (distinct_of_scanLines hlines)
  obtain ⟨first, hfirst, hsections⟩ := Option.bind_eq_some_iff.mp hentries
  exact distinct_of_addSections hlater (Entries.distinct_addPairs hpairs Entries.distinct_nil hfirst)
    hsections

/-- A text that is a document, with its entries. -/
structure Document where
  text : String
  entries : Entries
  isRead : read? text = some entries

/-- No table of a document has a key twice. -/
theorem Document.distinct (document : Document) : Entries.Distinct document.entries :=
  distinct_of_read? document.isRead

end AccessPattern.Toml
