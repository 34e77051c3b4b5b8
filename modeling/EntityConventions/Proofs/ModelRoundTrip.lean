import EntityConventions.Proofs.ModelReading

/-! # Writing and reading documents

A document that is written is read back with its files settled (`Model.parse_print`), because what
is written is a spelling and its text is one of the texts of that.  Two things are needed beside
this.  What is written is read only if there is room for it (`Model.confines_toJson`): all its
members are known, so no reader passes over any.  And what was read fits
(`Model.fits_of_ofJson?`) and has its files settled already, so it does not change when it is
written and read again. -/

namespace EntityConventions

open Json (Confines depth_ofOption_le)
open Json.Record (depth_ofMembers_le of_required of_optional of_optional_nullable of_optional_listOf)

/-! ### Room for what is written -/

theorem Expr.confines_toJson (e : Expr) : Confines ofJson? e.toJson := by
  intro room b h
  unfold ofJson? at h
  split at h
  case isTrue hchecked => exact hchecked.1
  case isFalse => exact absurd h (by simp)

theorem Argument.confines_toJson (arg : Argument) : Confines ofJson? arg.toJson := by
  intro room b h
  obtain ⟨room, rfl, r, hr, -, hvalue, -⟩ := ofJson?_eq_some_iff.mp h
  refine depth_ofMembers_le hr ⟨fun _ => ?_, ?_, fun _ => Nat.zero_le room⟩
  · exact depth_ofOption_le (fun _ => rfl) arg.name room
  · exact arg.value.confines_toJson.depth_le_of_required hvalue

theorem Attribute.confines_toJson (a : Attribute) : Confines ofJson? a.toJson := by
  intro room b h
  obtain ⟨room, rfl, r, hr, -, -, hargs⟩ := ofJson?_eq_some_iff.mp h
  refine depth_ofMembers_le hr ⟨fun _ => Nat.zero_le room, fun _ => Nat.zero_le room, ?_⟩
  exact (Confines.listOf Argument.confines_toJson a.args).depth_le_of_optional hargs

theorem Property.confines_toJson (p : Property) : Confines ofJson? p.toJson := by
  intro room b h
  obtain ⟨room, rfl, r, hr, -, -, hattributes⟩ := ofJson?_eq_some_iff.mp h
  refine depth_ofMembers_le hr ⟨fun _ => Nat.zero_le room, fun _ => Nat.zero_le room, ?_⟩
  exact (Confines.listOf Attribute.confines_toJson p.attributes).depth_le_of_optional hattributes

theorem ConstructorSignature.confines_toJson (c : ConstructorSignature) :
    Confines ofJson? c.toJson := by
  intro room b h
  obtain ⟨room, rfl, r, hr, -, hparameters⟩ := ofJson?_eq_some_iff.mp h
  refine depth_ofMembers_le hr ⟨fun _ => Nat.zero_le room, ?_⟩
  exact (Confines.texts c.parameters).depth_le_of_optional hparameters

theorem ClassDeclaration.confines_toJson (d : ClassDeclaration) : Confines ofJson? d.toJson := by
  intro room b h
  obtain ⟨room, rfl, r, hr, -, -, -, hattributes, hproperties, hconstructor⟩ :=
    ofJson?_eq_some_iff.mp h
  refine depth_ofMembers_le hr ⟨fun _ => Nat.zero_le room, fun _ => Nat.zero_le room,
    fun _ => Nat.zero_le room, ?_, ?_, ?_⟩
  · exact (Confines.listOf Attribute.confines_toJson d.attributes).depth_le_of_optional hattributes
  · exact (Confines.listOf Property.confines_toJson d.properties).depth_le_of_optional hproperties
  · exact (Confines.nullable ConstructorSignature.confines_toJson
      d.constructor?).depth_le_of_optional hconstructor

theorem ConstructorFacts.confines_toJson (c : ConstructorFacts) : Confines ofJson? c.toJson := by
  intro room b h
  obtain ⟨room, rfl, r, hr, -, -⟩ := ofJson?_eq_some_iff.mp h
  refine depth_ofMembers_le hr ⟨fun _ => Nat.zero_le room, fun _ => ?_⟩
  exact depth_ofOption_le (fun _ => rfl) c.line room

theorem Reflection.confines_toJson (c : Reflection) : Confines ofJson? c.toJson := by
  intro room b h
  obtain ⟨room, rfl, r, hr, -, -, -, -, hancestors, hconstructor, hattributes⟩ :=
    ofJson?_eq_some_iff.mp h
  refine depth_ofMembers_le hr ⟨fun _ => Nat.zero_le room, fun _ => ?_,
    fun _ => Nat.zero_le room, fun _ => Nat.zero_le room, ?_, ?_, ?_⟩
  · exact depth_ofOption_le (fun _ => rfl) c.file room
  · exact (Confines.texts c.ancestors).depth_le_of_optional hancestors
  · exact (Confines.nullable ConstructorFacts.confines_toJson
      c.constructor?).depth_le_of_optional hconstructor
  · exact (Confines.listOf Attribute.confines_toJson c.attributes).depth_le_of_optional hattributes

theorem ClassEntry.confines_toJson (e : ClassEntry) : Confines ofJson? e.toJson := by
  intro room b h
  obtain ⟨room, rfl, r, hr, -, hdeclaration, hreflection⟩ := ofJson?_eq_some_iff.mp h
  refine depth_ofMembers_le hr ⟨fun _ => ?_, ?_, ?_⟩
  · exact depth_ofOption_le (fun _ => rfl) e.file? room
  · exact (Confines.nullable ClassDeclaration.confines_toJson
      e.declaration?).depth_le_of_optional hdeclaration
  · exact e.reflection.confines_toJson.depth_le_of_required hreflection

/-- A document is read back only if there is room for its nesting. -/
theorem Model.confines_toJson (m : Model) : Confines ofJson? m.toJson := by
  intro room b h
  obtain ⟨room, rfl, r, hr, hclasses⟩ := ofJson?_eq_some_iff.mp h
  refine depth_ofMembers_le hr ?_
  exact (Confines.listOf ClassEntry.confines_toJson m.classes).depth_le_of_optional hclasses

/-! ### What is read fits -/

theorem isWord_of_nat64? (j : Json) (n : Nat) (h : j.nat64? = some n) : IsWord n := by
  unfold Json.nat64? at h
  split at h
  · split at h
    case isTrue hlt =>
      cases h
      exact hlt
    case isFalse => exact absurd h (by simp)
  · exact absurd h (by simp)

theorem isSignedWord_of_int64? (j : Json) (i : Int) (h : j.int64? = some i) : IsSignedWord i := by
  unfold Json.int64? at h
  split at h
  · split at h
    case isTrue hrange =>
      cases h
      exact hrange
    case isFalse => exact absurd h (by simp)
  · exact absurd h (by simp)

theorem isWord_of_line {r : Json.Record} {line : Nat}
    (h : r.optional "line" 0 Json.nat64? = some line) : IsWord line :=
  of_optional h (by simp [IsWord]) isWord_of_nat64?

theorem Expr.itemsFit_of_forall {items : List (Item Expr)}
    (h : ∀ item ∈ items, (∀ key ∈ item.key, key.Fits) ∧ item.value.Fits ∧ IsWord item.line) :
    ItemsFit items := by
  induction items with
  | nil => trivial
  | cons item items ih =>
      obtain ⟨⟨hkey, hvalue, hline⟩, hitems⟩ := List.forall_mem_cons.mp h
      obtain ⟨_ | key, value, line⟩ := item
      · exact ⟨⟨hvalue, hline⟩, ih hitems⟩
      · exact ⟨⟨hkey key rfl, hvalue, hline⟩, ih hitems⟩

mutual

theorem Expr.fits_of_ofChecked? : ∀ (room : Nat) (numbered : Bool) (j : Json) (e : Expr),
    ofChecked? room numbered j = some e → e.Fits
  | 0, _, _, _, h => absurd h (by simp [ofChecked?])
  | room + 1, numbered, j, e, h => by
      simp only [ofChecked?, Option.bind_eq_bind, Option.bind_eq_some_iff] at h
      obtain ⟨⟨form, r⟩, -, line, hline, h⟩ := h
      have hword : IsWord line := isWord_of_line hline
      cases form with
      | string =>
          obtain ⟨value, -, he⟩ := Option.bind_eq_some_iff.mp h
          cases he
          exact hword
      | int =>
          obtain ⟨value, hvalue, he⟩ := Option.bind_eq_some_iff.mp h
          cases he
          exact ⟨of_required hvalue isSignedWord_of_int64?, hword⟩
      | classConst =>
          obtain ⟨class?, -, h⟩ := Option.bind_eq_some_iff.mp h
          obtain ⟨constant?, -, he⟩ := Option.bind_eq_some_iff.mp h
          cases he
          exact hword
      | array =>
          obtain ⟨items, hitems, he⟩ := Option.bind_eq_some_iff.mp h
          cases he
          exact ⟨of_optional hitems trivial (Expr.fits_of_itemsOfChecked? room), hword⟩
      | other =>
          obtain ⟨text?, -, he⟩ := Option.bind_eq_some_iff.mp h
          cases he
          exact hword

theorem Expr.fits_of_itemsOfChecked? : ∀ (room : Nat) (j : Json) (items : List (Item Expr)),
    itemsOfChecked? room j = some items → ItemsFit items
  | 0, _, _, h => absurd h (by simp [itemsOfChecked?])
  | room + 1, .array js, items, h => by
      exact itemsFit_of_forall (Json.of_mapM h (Expr.fits_of_itemOfChecked? room))

theorem Expr.fits_of_itemOfChecked? : ∀ (room : Nat) (j : Json) (item : Item Expr),
    itemOfChecked? room j = some item →
      (∀ key ∈ item.key, key.Fits) ∧ item.value.Fits ∧ IsWord item.line
  | 0, _, _, h => absurd h (by simp [itemOfChecked?])
  | room + 1, j, item, h => by
      simp only [itemOfChecked?, Option.bind_eq_bind, Option.bind_eq_some_iff] at h
      obtain ⟨r, -, key?, hkey, value, hvalue, line, hline, h⟩ := h
      cases h
      refine ⟨?_, ?_, isWord_of_line hline⟩
      · exact of_optional_nullable hkey (Expr.fits_of_ofChecked? room true)
      · exact of_required hvalue (Expr.fits_of_ofChecked? room true)

end

theorem Expr.fits_of_ofJson? (room : Nat) (j : Json) (e : Expr) (h : ofJson? room j = some e) :
    e.Fits := by
  unfold ofJson? at h
  split at h
  case isTrue => exact fits_of_ofChecked? room false j e h
  case isFalse => exact absurd h (by simp)

theorem Argument.fits_of_ofJson? (room : Nat) (j : Json) (arg : Argument)
    (h : ofJson? room j = some arg) : arg.Fits := by
  obtain ⟨room, -, r, -, -, hvalue, hline⟩ := ofJson?_eq_some_iff.mp h
  exact ⟨of_required hvalue (Expr.fits_of_ofJson? room), isWord_of_line hline⟩

theorem Attribute.fits_of_ofJson? (room : Nat) (j : Json) (a : Attribute)
    (h : ofJson? room j = some a) : a.Fits := by
  obtain ⟨room, -, r, -, -, hline, hargs⟩ := ofJson?_eq_some_iff.mp h
  exact ⟨isWord_of_line hline, of_optional_listOf hargs Argument.fits_of_ofJson?⟩

theorem Property.fits_of_ofJson? (room : Nat) (j : Json) (p : Property)
    (h : ofJson? room j = some p) : p.Fits := by
  obtain ⟨room, -, r, -, -, hline, hattributes⟩ := ofJson?_eq_some_iff.mp h
  exact ⟨isWord_of_line hline, of_optional_listOf hattributes Attribute.fits_of_ofJson?⟩

theorem ConstructorSignature.isWord_of_ofJson? (room : Nat) (j : Json) (c : ConstructorSignature)
    (h : ofJson? room j = some c) : IsWord c.line := by
  obtain ⟨room, -, r, -, hline, -⟩ := ofJson?_eq_some_iff.mp h
  exact isWord_of_line hline

theorem ClassDeclaration.fits_of_ofJson? (room : Nat) (j : Json) (d : ClassDeclaration)
    (h : ofJson? room j = some d) : d.Fits := by
  obtain ⟨room, -, r, -, -, -, hline, hattributes, hproperties, hconstructor⟩ :=
    ofJson?_eq_some_iff.mp h
  exact ⟨isWord_of_line hline, of_optional_listOf hattributes Attribute.fits_of_ofJson?,
    of_optional_listOf hproperties Property.fits_of_ofJson?,
    of_optional_nullable hconstructor (ConstructorSignature.isWord_of_ofJson? room)⟩

theorem ConstructorFacts.fits_of_ofJson? (room : Nat) (j : Json) (c : ConstructorFacts)
    (h : ofJson? room j = some c) : c.Fits := by
  obtain ⟨room, -, r, -, hparameters, hline⟩ := ofJson?_eq_some_iff.mp h
  exact ⟨of_required hparameters isWord_of_nat64?, of_optional_nullable hline isWord_of_nat64?⟩

theorem Reflection.fits_of_ofJson? (room : Nat) (j : Json) (c : Reflection)
    (h : ofJson? room j = some c) : c.Fits := by
  obtain ⟨room, -, r, -, -, -, hline, -, -, hconstructor, hattributes⟩ := ofJson?_eq_some_iff.mp h
  exact ⟨isWord_of_line hline,
    of_optional_nullable hconstructor (ConstructorFacts.fits_of_ofJson? room),
    of_optional_listOf hattributes Attribute.fits_of_ofJson?⟩

theorem ClassEntry.fits_of_ofJson? (room : Nat) (j : Json) (e : ClassEntry)
    (h : ofJson? room j = some e) : e.Fits := by
  obtain ⟨room, -, r, -, -, hdeclaration, hreflection⟩ := ofJson?_eq_some_iff.mp h
  exact ⟨of_optional_nullable hdeclaration (ClassDeclaration.fits_of_ofJson? room),
    of_required hreflection (Reflection.fits_of_ofJson? room)⟩

theorem Model.fits_of_ofJson? (room : Nat) (j : Json) (m : Model) (h : ofJson? room j = some m) :
    m.Fits := by
  obtain ⟨room, -, r, -, hclasses⟩ := ofJson?_eq_some_iff.mp h
  exact of_optional_listOf hclasses ClassEntry.fits_of_ofJson?

/-! ### Reading back -/

theorem ClassEntry.fits_settleFile {e : ClassEntry} (h : e.Fits) : e.settleFile.Fits := by
  rw [settleFile_eq]
  obtain ⟨hdeclaration, hline, hconstructor, hattributes⟩ := h
  exact ⟨hdeclaration, hline, hconstructor, hattributes⟩

theorem Model.fits_settleFiles {m : Model} (h : m.Fits) : m.settleFiles.Fits := by
  intro e he
  obtain ⟨e, hmem, rfl⟩ := List.mem_map.mp he
  exact ClassEntry.fits_settleFile (h e hmem)

theorem ClassEntry.settleFile_settleFile (e : ClassEntry) :
    e.settleFile.settleFile = e.settleFile := by
  obtain ⟨_ | file, declaration?, reflection⟩ := e <;> rfl

theorem Model.settleFiles_settleFiles (m : Model) :
    m.settleFiles.settleFiles = m.settleFiles := by
  refine congrArg Model.mk ?_
  rw [settleFiles, List.map_map]
  exact List.map_congr_left fun e _ => e.settleFile_settleFile

/-- What is written for a document is read back, with its files settled, or not at all. -/
theorem Model.parse_print_eq {m : Model} (hfits : m.Fits) :
    parse m.print = if m.toJson.depth ≤ 127 then some m.settleFiles else none := by
  have htext : Json.parse m.print = some m.toJson := Json.parse_compact m.toJson
  split
  case isTrue hdepth =>
    have hread := ofJson?_of_spelledBy hfits m.spelledBy_toJson hdepth
    exact parse_eq_some_iff.mpr ⟨m.toJson, htext, m, hread, rfl⟩
  case isFalse hdepth =>
    -- Had anything been read, there would have been room for all that is written.
    rw [Option.eq_none_iff_forall_ne_some]
    intro b hb
    obtain ⟨j, hj, m', hread, -⟩ := parse_eq_some_iff.mp hb
    cases htext.symm.trans hj
    exact hdepth (m.confines_toJson 127 m' hread)

/-- **Reading what was written.**  A document is read back from its own text exactly if the text
nests at most 127 deep, and then nothing has changed except that each entry that has a file has
passed it on to its resolved class.  A document that was itself read does not change at all. -/
theorem Model.parse_print :
    (∀ m : Model, m.Fits → parse m.print = if m.toJson.depth ≤ 127 then
      some ⟨m.classes.map fun e =>
        { e with reflection := { e.reflection with file := e.file?.or e.reflection.file } }⟩
      else none) ∧
    ∀ (text : String) (m : Model), parse text = some m → m.toJson.depth ≤ 127 →
      parse m.print = some m := by
  constructor
  · intro m hfits
    rw [parse_print_eq hfits, settleFiles_eq]
  · intro text m h hdepth
    -- What was read is settled, so settling it once more leaves it as it is.
    obtain ⟨j, -, m, hread, rfl⟩ := parse_eq_some_iff.mp h
    have hfits := fits_settleFiles (fits_of_ofJson? 127 j m hread)
    rw [parse_print_eq hfits, if_pos hdepth, settleFiles_settleFiles]

theorem Model.parse_print_indexedDay :
    Model.parse indexedDay.print = some ⟨indexedDay.classes.map fun e =>
      { e with reflection := { e.reflection with file := some ⟨"src/Day.php"⟩ } }⟩ ∧
    ∀ m, Model.parse indexedDay.print = some m → Model.parse m.print = some m := by
  have h := Model.parse_print.1 indexedDay fits_indexedDay
  rw [if_pos (by decide)] at h
  refine ⟨h, fun m hm => ?_⟩
  cases h.symm.trans hm
  exact Model.parse_print.2 indexedDay.print _ hm (by decide)

end EntityConventions
