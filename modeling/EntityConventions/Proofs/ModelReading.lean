import EntityConventions.Proofs.JsonPrinting
import EntityConventions.Proofs.ModelSpelling

/-! # Reading spellings of documents

For each type of a document, `ofJson?_eq_some_iff` says what its reader takes: the record that is
written, and in it every field by the reader of that field.  Nothing after these statements opens a
reader again, those of expressions apart.

What fits is read from each of its spellings, if there is room for its nesting
(`Expr.ofJson?_of_spelledBy`, …, `Model.ofJson?_of_spelledBy`).  All texts of a document therefore
mean the same document (`Model.parse_of_spelledBy`). -/

namespace EntityConventions

open Json (nullableSpelling listSpelling)
open Json.Record (Field mandatory defaulted Spelling)

/-! ### What the readers take -/

theorem Argument.ofJson?_eq_some_iff {room : Nat} {j : Json} {arg : Argument} :
    ofJson? room j = some arg ↔ ∃ room', room = room' + 1 ∧
      ∃ r, Json.Record.ofJson ["name", "value", "line"] j = some r ∧
        r.optional "name" none (Json.nullable Json.text?) = some arg.name ∧
        r.required "value" (Expr.ofJson? room') = some arg.value ∧
        r.optional "line" 0 Json.nat64? = some arg.line := by
  obtain ⟨name, value, line⟩ := arg
  simp only [ofJson?, Option.bind_eq_bind, Option.bind_eq_some_iff, Json.enter_eq_some_iff,
    Option.pure_def, Option.some.injEq, Argument.mk.injEq]
  grind

theorem Attribute.ofJson?_eq_some_iff {room : Nat} {j : Json} {a : Attribute} :
    ofJson? room j = some a ↔ ∃ room', room = room' + 1 ∧
      ∃ r, Json.Record.ofJson ["name", "line", "args"] j = some r ∧
        r.required "name" Json.text? = some a.name ∧
        r.optional "line" 0 Json.nat64? = some a.line ∧
        r.optional "args" [] (Json.listOf Argument.ofJson? room') = some a.args := by
  obtain ⟨name, line, args⟩ := a
  simp only [ofJson?, Option.bind_eq_bind, Option.bind_eq_some_iff, Json.enter_eq_some_iff,
    Option.pure_def, Option.some.injEq, Attribute.mk.injEq]
  grind

theorem Property.ofJson?_eq_some_iff {room : Nat} {j : Json} {p : Property} :
    ofJson? room j = some p ↔ ∃ room', room = room' + 1 ∧
      ∃ r, Json.Record.ofJson ["name", "line", "attributes"] j = some r ∧
        r.required "name" Json.text? = some p.name ∧
        r.optional "line" 0 Json.nat64? = some p.line ∧
        r.optional "attributes" [] (Json.listOf Attribute.ofJson? room') = some p.attributes := by
  obtain ⟨name, line, attributes⟩ := p
  simp only [ofJson?, Option.bind_eq_bind, Option.bind_eq_some_iff, Json.enter_eq_some_iff,
    Option.pure_def, Option.some.injEq, Property.mk.injEq]
  grind

theorem ConstructorSignature.ofJson?_eq_some_iff {room : Nat} {j : Json} {c : ConstructorSignature} :
    ofJson? room j = some c ↔ ∃ room', room = room' + 1 ∧
      ∃ r, Json.Record.ofJson ["line", "parameters"] j = some r ∧
        r.optional "line" 0 Json.nat64? = some c.line ∧
        r.optional "parameters" [] (Json.listOf (fun _ => Json.text?) room') =
          some c.parameters := by
  obtain ⟨line, parameters⟩ := c
  simp only [ofJson?, Option.bind_eq_bind, Option.bind_eq_some_iff, Json.enter_eq_some_iff,
    Option.pure_def, Option.some.injEq, ConstructorSignature.mk.injEq]
  grind

theorem ClassDeclaration.ofJson?_eq_some_iff {room : Nat} {j : Json} {d : ClassDeclaration} :
    ofJson? room j = some d ↔ ∃ room', room = room' + 1 ∧
      ∃ r, Json.Record.ofJson
        ["name", "kind", "line", "attributes", "properties", "constructor"] j = some r ∧
        r.required "name" Json.text? = some d.name ∧
        r.optional "kind" .regular (Json.wordOf ClassKind.ofWord? room') = some d.kind ∧
        r.optional "line" 0 Json.nat64? = some d.line ∧
        r.optional "attributes" [] (Json.listOf Attribute.ofJson? room') = some d.attributes ∧
        r.optional "properties" [] (Json.listOf Property.ofJson? room') = some d.properties ∧
        r.optional "constructor" none (Json.nullable (ConstructorSignature.ofJson? room')) =
          some d.constructor? := by
  obtain ⟨name, kind, line, attributes, properties, constructor?⟩ := d
  simp only [ofJson?, Option.bind_eq_bind, Option.bind_eq_some_iff, Json.enter_eq_some_iff,
    Option.pure_def, Option.some.injEq, ClassDeclaration.mk.injEq]
  grind

theorem ConstructorFacts.ofJson?_eq_some_iff {room : Nat} {j : Json} {c : ConstructorFacts} :
    ofJson? room j = some c ↔ ∃ room', room = room' + 1 ∧
      ∃ r, Json.Record.ofJson ["parameters", "line"] j = some r ∧
        r.required "parameters" Json.nat64? = some c.parameters ∧
        r.optional "line" none (Json.nullable Json.nat64?) = some c.line := by
  constructor
  · intro h
    simp only [ofJson?, Option.bind_eq_bind, Option.bind_eq_some_iff, Json.enter_eq_some_iff] at h
    obtain ⟨room', hroom, r, hr, parameters, hparameters, line, hline, hc⟩ := h
    cases hc
    exact ⟨room', hroom, r, hr, hparameters, hline⟩
  · rintro ⟨room', rfl, r, hr, hparameters, hline⟩
    simp [ofJson?, Json.enter, hr, hparameters, hline]

theorem Reflection.ofJson?_eq_some_iff {room : Nat} {j : Json} {c : Reflection} :
    ofJson? room j = some c ↔ ∃ room', room = room' + 1 ∧
      ∃ r, Json.Record.ofJson
        ["name", "file", "line", "is_abstract", "ancestors", "constructor", "attributes"] j = some r ∧
        r.required "name" Json.text? = some c.name ∧
        r.optional "file" none (Json.nullable Path.ofJson?) = some c.file ∧
        r.optional "line" 0 Json.nat64? = some c.line ∧
        r.optional "is_abstract" false Json.bool? = some c.isAbstract ∧
        r.optional "ancestors" [] (Json.listOf (fun _ => Json.text?) room') = some c.ancestors ∧
        r.optional "constructor" none (Json.nullable (ConstructorFacts.ofJson? room')) =
          some c.constructor? ∧
        r.optional "attributes" [] (Json.listOf Attribute.ofJson? room') = some c.attributes := by
  obtain ⟨name, file, line, isAbstract, ancestors, constructor?, attributes⟩ := c
  simp only [ofJson?, Option.bind_eq_bind, Option.bind_eq_some_iff, Json.enter_eq_some_iff,
    Option.pure_def, Option.some.injEq, Reflection.mk.injEq]
  grind

theorem ClassEntry.ofJson?_eq_some_iff {room : Nat} {j : Json} {e : ClassEntry} :
    ofJson? room j = some e ↔ ∃ room', room = room' + 1 ∧
      ∃ r, Json.Record.ofJson ["file", "declaration", "reflection"] j = some r ∧
        r.optional "file" none (Json.nullable Path.ofJson?) = some e.file? ∧
        r.optional "declaration" none (Json.nullable (ClassDeclaration.ofJson? room')) =
          some e.declaration? ∧
        r.required "reflection" (Reflection.ofJson? room') = some e.reflection := by
  obtain ⟨file?, declaration?, reflection⟩ := e
  simp only [ofJson?, Option.bind_eq_bind, Option.bind_eq_some_iff, Json.enter_eq_some_iff,
    Option.pure_def, Option.some.injEq, ClassEntry.mk.injEq]
  grind

theorem Model.ofJson?_eq_some_iff {room : Nat} {j : Json} {m : Model} :
    ofJson? room j = some m ↔ ∃ room', room = room' + 1 ∧
      ∃ r, Json.Record.ofJson ["classes"] j = some r ∧
        r.optional "classes" [] (Json.listOf ClassEntry.ofJson? room') = some m.classes := by
  obtain ⟨classes⟩ := m
  simp only [ofJson?, Option.bind_eq_bind, Option.bind_eq_some_iff, Json.enter_eq_some_iff,
    Option.pure_def, Option.some.injEq, Model.mk.injEq]
  grind

/-! ### Reading expressions -/

theorem Expr.Form.ofJson?_word (numbered : Bool) (form : Form) :
    Form.ofJson? numbered (.ofString form.word) = some form := by
  cases form <;> rfl

theorem Expr.Form.nodup_fields (form : Form) : ("kind" :: form.fields).Nodup := by
  cases form <;> decide

/-- The kind of an expression is found wherever it is written, and the other fields with it. -/
theorem Expr.formOf?_of_spelling (form : Form) (numbered : Bool) {fields : List Field} {j : Json}
    {room : Nat} (h : Spelling clean (kindField form.word :: fields) j)
    (hfields : fields.map Prod.fst = form.fields) (hdepth : j.depth ≤ room) :
    ∃ room', room = room' + 1 ∧
      ∃ r, formOf? numbered j = some (form, r) ∧ r.Holds room' fields := by
  have hnames : ((kindField form.word :: fields).map Prod.fst).Nodup := by
    rw [List.map_cons, hfields]
    exact form.nodup_fields
  have hsub : form.fields ⊆ (kindField form.word :: fields).map Prod.fst := by
    rw [← hfields]
    exact List.subset_cons_self _ _
  cases h with
  | @object chosen others members hchosen hothers hmembers =>
      have hothers' := fun m hm => (hothers m hm).1
      rw [Json.depth_ofMembers] at hdepth
      -- The object is read twice, once for the kind and once for the fields that go with it.
      have hkindSub : ["kind"] ⊆ (kindField form.word :: fields).map Prod.fst := by simp [kindField]
      obtain ⟨tag, htag, hkind, hkinds⟩ :=
        Json.Record.ofJson_object hnames hchosen hothers' hmembers hkindSub
      obtain ⟨r, hr, hread, hvalues⟩ :=
        Json.Record.ofJson_object hnames hchosen hothers' hmembers hsub
      have hform : tag.required "kind" (Form.ofJson? numbered) = some form := by
        refine Json.Record.required_of (S := textSpelling form.word)
          ⟨hkind _ List.mem_cons_self List.mem_cons_self,
            fun v hv => Json.depth_le_depthItems (hkinds _ v hv)⟩ fun v hv _ => ?_
        rw [hv]
        exact Form.ofJson?_word numbered form
      refine ⟨room - 1, by omega, r, ?_, Json.Record.holds_iff.mpr fun f hf => ?_⟩
      · rw [Json.ofMembers] at htag hr ⊢
        simp [formOf?, htag, hform, hr]
      · have hname : f.1 ∈ form.fields := hfields ▸ List.mem_map_of_mem hf
        refine ⟨hread f (List.mem_cons_of_mem _ hf) hname, fun v hv => ?_⟩
        have := Json.depth_le_depthItems (hvalues f.1 v hv)
        omega
  | @array items h =>
      cases h with
      | rest h => exact (h _ List.mem_cons_self).elim
      | @written _ _ _ items kind hkind hs =>
          rw [Json.depth_array, Json.depthItems] at hdepth
          rw [List.map_cons, List.nodup_cons] at hnames
          have hitems : Json.depthItems items ≤ room - 1 := by omega
          obtain ⟨r, hr, hholds⟩ := Json.Record.ofJson_array hs hnames.2 hitems
          have hform : Form.ofJson? numbered kind = some form := by
            rw [show kind = .ofString form.word from hkind]
            exact Form.ofJson?_word numbered form
          rw [hfields] at hr
          refine ⟨room - 1, by omega, r, ?_, hholds⟩
          simp [formOf?, hform, hr]

theorem text_of {text : String} {j : Json} (h : textSpelling text j) : j.text? = some text := by
  rw [h]
  rfl

theorem nullable_text_of {text? : Option String} {j : Json} {room : Nat}
    (h : nullableSpelling textSpelling text? j) (hdepth : j.depth ≤ room) :
    Json.nullable Json.text? j = some text? :=
  Json.nullable_of rfl h hdepth fun _ _ _ h _ => text_of h

theorem texts_of {texts : List String} {j : Json} {room : Nat}
    (h : listSpelling textSpelling texts j) (hdepth : j.depth ≤ room) :
    Json.listOf (fun _ => Json.text?) room j = some texts :=
  Json.listOf_of h hdepth fun _ _ _ _ hj _ => text_of hj

theorem nat_of {n : Nat} {j : Json} (h : natSpelling n j) (hn : IsWord n) :
    j.nat64? = some n := by
  rw [h]
  exact Json.nat64?_ofNat hn

theorem line_of {r : Json.Record} {room line : Nat} (h : r.HoldsField room (lineField line))
    (hline : IsWord line) : r.optional "line" 0 Json.nat64? = some line :=
  Json.Record.optional_of h fun _ hj _ => nat_of hj hline

theorem Expr.ofChecked?_null (room : Nat) (numbered : Bool) :
    ofChecked? room numbered .null = none := by
  cases room <;> rfl

/-- An item is read if its key and its value are. -/
theorem Expr.itemOfChecked?_of_spelling {key? : Option Expr} {value : Expr} {line room : Nat}
    {K : Option Json → Prop} {j : Json}
    (h : Spelling clean [("key", K), ("value", mandatory value.SpelledBy), lineField line] j)
    (hdepth : j.depth ≤ room)
    (hkey : ∀ (r : Json.Record) (room : Nat), r.HoldsField room ("key", K) →
      r.optional "key" none (Json.nullable (ofChecked? room true)) = some key?)
    (hvalue : ∀ (j : Json) (room : Nat), value.SpelledBy j → j.depth ≤ room →
      ofChecked? room true j = some value)
    (hline : IsWord line) : itemOfChecked? room j = some ⟨key?, value, line⟩ := by
  obtain ⟨room, rfl, r, hr, hkeyHeld, hvalueHeld, hlineHeld⟩ :=
    h.read (by simp [lineField]) hdepth
  have hr : Json.Record.ofJson ["key", "value", "line"] j = some r := hr
  have hread := Json.Record.required_of hvalueHeld fun j hj hd => hvalue j room hj hd
  simp [itemOfChecked?, hr, hkey r room hkeyHeld, hread, line_of hlineHeld hline]

mutual

/-- An expression is read from each of its spellings. -/
theorem Expr.ofChecked?_of_spelledBy : ∀ (e : Expr) (numbered : Bool) (j : Json) (room : Nat),
    e.Fits → e.SpelledBy j → j.depth ≤ room → ofChecked? room numbered j = some e
  | .string value line, numbered, j, room, hfits, h, hdepth => by
      obtain ⟨room, rfl, r, hr, hvalue, hline⟩ :=
        formOf?_of_spelling .string numbered h rfl hdepth
      have hvalue := Json.Record.required_of hvalue fun j hj _ => text_of hj
      simp [ofChecked?, hr, hvalue, line_of hline hfits]
  | .int value line, numbered, j, room, hfits, h, hdepth => by
      obtain ⟨room, rfl, r, hr, hvalue, hline⟩ :=
        formOf?_of_spelling .int numbered h rfl hdepth
      have hvalue : r.required "value" Json.int64? = some value :=
        Json.Record.required_of hvalue fun j hj _ => hj ▸ Json.int64?_ofInt hfits.1
      simp [ofChecked?, hr, hvalue, line_of hline hfits.2]
  | .classConst class? constant? line, numbered, j, room, hfits, h, hdepth => by
      obtain ⟨room, rfl, r, hr, hclass, hconstant, hline⟩ :=
        formOf?_of_spelling .classConst numbered h rfl hdepth
      have hclass := Json.Record.optional_of hclass fun j hj hd => nullable_text_of hj hd
      have hconstant := Json.Record.optional_of hconstant fun j hj hd => nullable_text_of hj hd
      simp [ofChecked?, hr, hclass, hconstant, line_of hline hfits]
  | .array items line, numbered, j, room, hfits, h, hdepth => by
      obtain ⟨room, rfl, r, hr, hitems, hline⟩ :=
        formOf?_of_spelling .array numbered h rfl hdepth
      have hitems : r.optional "items" [] (itemsOfChecked? room) = some items := by
        refine Json.Record.optional_of hitems fun j hj hd => ?_
        obtain ⟨js, rfl, hjs⟩ := hj
        -- The array around the items takes one level of the room.
        rw [Json.depth_array] at hd
        obtain ⟨room, rfl⟩ : ∃ n, room = n + 1 := ⟨room - 1, by omega⟩
        rw [itemsOfChecked?]
        exact Expr.itemsOfChecked?_of_spelledBy items js room hfits.1 hjs (by omega)
      simp [ofChecked?, hr, hitems, line_of hline hfits.2]
  | .other text? line, numbered, j, room, hfits, h, hdepth => by
      obtain ⟨room, rfl, r, hr, htext, hline⟩ :=
        formOf?_of_spelling .other numbered h rfl hdepth
      have htext := Json.Record.optional_of htext fun j hj hd => nullable_text_of hj hd
      simp [ofChecked?, hr, htext, line_of hline hfits]

/-- The items of a literal array are read from each of their spellings. -/
theorem Expr.itemsOfChecked?_of_spelledBy : ∀ (items : List (Item Expr)) (js : List Json)
    (room : Nat), ItemsFit items → ItemsSpelledBy items js → Json.depthItems js ≤ room →
    js.mapM (itemOfChecked? room) = some items
  | [], js, room, _, h, _ => by
      rw [show js = [] from h]
      rfl
  | ⟨none, value, line⟩ :: items, js, room, hfits, h, hdepth => by
      obtain ⟨j, rest, rfl, hj, hrest⟩ := h
      rw [Json.depthItems] at hdepth
      have hitem : itemOfChecked? room j = some ⟨none, value, line⟩ := by
        refine itemOfChecked?_of_spelling hj (by omega) (fun r room hkey => ?_)
          (fun j room hj hd => Expr.ofChecked?_of_spelledBy value true j room hfits.1.1 hj hd)
          hfits.1.2
        exact Json.Record.optional_of hkey fun j hj _ => hj ▸ rfl
      have hitems := Expr.itemsOfChecked?_of_spelledBy items rest room hfits.2 hrest (by omega)
      simp [hitem, hitems]
  | ⟨some key, value, line⟩ :: items, js, room, hfits, h, hdepth => by
      obtain ⟨j, rest, rfl, hj, hrest⟩ := h
      rw [Json.depthItems] at hdepth
      have hitem : itemOfChecked? room j = some ⟨some key, value, line⟩ := by
        refine itemOfChecked?_of_spelling hj (by omega) (fun r room hkey => ?_)
          (fun j room hj hd => Expr.ofChecked?_of_spelledBy value true j room hfits.1.2.1 hj hd)
          hfits.1.2.2
        refine Json.Record.optional_of hkey fun j hj hd => ?_
        exact Json.nullable_eq_some (ofChecked?_null room true)
          (Expr.ofChecked?_of_spelledBy key true j room hfits.1.1 hj hd)
      have hitems := Expr.itemsOfChecked?_of_spelledBy items rest room hfits.2 hrest (by omega)
      simp [hitem, hitems]

end

theorem isClean_of_textSpelling {text : String} {j : Json} (h : textSpelling text j) :
    j.isClean = true := by
  rw [h]
  rfl

theorem isClean_of_nullable_text {text? : Option String} {j : Json}
    (h : nullableSpelling textSpelling text? j) : j.isClean = true := by
  cases text? with
  | none =>
      rw [show j = .null from h]
      rfl
  | some text => exact isClean_of_textSpelling h

theorem isClean_ofNat {n : Nat} (h : IsWord n) : (Json.ofNat n).isClean = true := by
  rw [Json.ofNat, Json.isClean, Numeral.overflows_integer_eq_false false h]
  rfl

theorem isClean_ofInt {i : Int} (h : IsSignedWord i) : (Json.ofInt i).isClean = true := by
  obtain ⟨hlow, hhigh⟩ := h
  have hword : i.natAbs < 18446744073709551616 := by omega
  rw [Json.ofInt, Json.isClean, Numeral.overflows_integer_eq_false _ hword]
  rfl

theorem isClean_of_lineField {line : Nat} (h : IsWord line) (j : Json)
    (hj : (lineField line).2 (some j)) : j.isClean = true := by
  rw [show j = .ofNat line from hj]
  exact isClean_ofNat h

mutual

/-- An expression whose numbers fit is spelled by clean values only. -/
theorem Expr.isClean_of_spelledBy : ∀ (e : Expr) (j : Json), e.Fits → e.SpelledBy j →
    j.isClean = true
  | .string _ _, _, hfits, h => by
      refine Json.Record.Spelling.isClean h ⟨?_, ?_, isClean_of_lineField hfits⟩
      · exact fun j hj => isClean_of_textSpelling hj
      · exact fun j hj => isClean_of_textSpelling hj
  | .int _ _, _, hfits, h => by
      refine Json.Record.Spelling.isClean h ⟨?_, ?_, isClean_of_lineField hfits.2⟩
      · exact fun j hj => isClean_of_textSpelling hj
      · exact fun j hj => hj ▸ isClean_ofInt hfits.1
  | .classConst _ _ _, _, hfits, h => by
      refine Json.Record.Spelling.isClean h ⟨?_, ?_, ?_, isClean_of_lineField hfits⟩
      · exact fun j hj => isClean_of_textSpelling hj
      · exact fun j hj => isClean_of_nullable_text hj
      · exact fun j hj => isClean_of_nullable_text hj
  | .array items _, _, hfits, h => by
      refine Json.Record.Spelling.isClean h ⟨?_, ?_, isClean_of_lineField hfits.2⟩
      · exact fun j hj => isClean_of_textSpelling hj
      · rintro j ⟨js, rfl, hjs⟩
        rw [Json.isClean]
        exact Expr.isClean_of_itemsSpelledBy items js hfits.1 hjs
  | .other _ _, _, hfits, h => by
      refine Json.Record.Spelling.isClean h ⟨?_, ?_, isClean_of_lineField hfits⟩
      · exact fun j hj => isClean_of_textSpelling hj
      · exact fun j hj => isClean_of_nullable_text hj

/-- The items of a literal array are spelled by clean values only. -/
theorem Expr.isClean_of_itemsSpelledBy : ∀ (items : List (Item Expr)) (js : List Json),
    ItemsFit items → ItemsSpelledBy items js → Json.isCleanItems js = true
  | [], js, _, h => by
      rw [show js = [] from h]
      rfl
  | ⟨none, value, line⟩ :: items, js, hfits, h => by
      obtain ⟨j, rest, rfl, hj, hrest⟩ := h
      have hitem : j.isClean = true := by
        refine Json.Record.Spelling.isClean hj ⟨?_, ?_, isClean_of_lineField hfits.1.2⟩
        · exact fun j hj => hj ▸ rfl
        · exact fun j hj => Expr.isClean_of_spelledBy value j hfits.1.1 hj
      rw [Json.isCleanItems, hitem, Expr.isClean_of_itemsSpelledBy items rest hfits.2 hrest]
      rfl
  | ⟨some key, value, line⟩ :: items, js, hfits, h => by
      obtain ⟨j, rest, rfl, hj, hrest⟩ := h
      have hitem : j.isClean = true := by
        refine Json.Record.Spelling.isClean hj ⟨?_, ?_, isClean_of_lineField hfits.1.2.2⟩
        · exact fun j hj => Expr.isClean_of_spelledBy key j hfits.1.1 hj
        · exact fun j hj => Expr.isClean_of_spelledBy value j hfits.1.2.1 hj
      rw [Json.isCleanItems, hitem, Expr.isClean_of_itemsSpelledBy items rest hfits.2 hrest]
      rfl

end

theorem Expr.ofJson?_of_spelledBy {e : Expr} {j : Json} {room : Nat} (hfits : e.Fits)
    (h : e.SpelledBy j) (hdepth : j.depth ≤ room) : ofJson? room j = some e := by
  rw [ofJson?, if_pos ⟨hdepth, e.isClean_of_spelledBy j hfits h⟩]
  exact e.ofChecked?_of_spelledBy false j room hfits h hdepth

/-! ### Reading declarations -/

theorem Argument.ofJson?_of_spelledBy {arg : Argument} {j : Json} {room : Nat} (hfits : arg.Fits)
    (h : arg.SpelledBy j) (hdepth : j.depth ≤ room) : ofJson? room j = some arg := by
  obtain ⟨room, rfl, r, hr, hname, hvalue, hline⟩ := h.read (by simp [lineField]) hdepth
  refine ofJson?_eq_some_iff.mpr ⟨room, rfl, r, hr, ?_, ?_, line_of hline hfits.line⟩
  · exact Json.Record.optional_of hname fun j hj hd => nullable_text_of hj hd
  · exact Json.Record.required_of hvalue fun j hj hd => Expr.ofJson?_of_spelledBy hfits.value hj hd

theorem Attribute.ofJson?_of_spelledBy {a : Attribute} {j : Json} {room : Nat} (hfits : a.Fits)
    (h : a.SpelledBy j) (hdepth : j.depth ≤ room) : ofJson? room j = some a := by
  obtain ⟨room, rfl, r, hr, hname, hline, hargs⟩ := h.read (by simp [lineField]) hdepth
  refine ofJson?_eq_some_iff.mpr ⟨room, rfl, r, hr, ?_, line_of hline hfits.line, ?_⟩
  · exact Json.Record.required_of hname fun j hj _ => text_of hj
  · refine Json.Record.optional_of hargs fun j hj hd => ?_
    refine Json.listOf_of hj hd fun arg harg _ _ hj hd => ?_
    exact Argument.ofJson?_of_spelledBy (hfits.args arg harg) hj hd

theorem attributes_of {r : Json.Record} {room : Nat} {attributes : List Attribute}
    (h : r.HoldsField room
      ("attributes", defaulted attributes [] (listSpelling Attribute.SpelledBy attributes)))
    (hfits : ∀ a ∈ attributes, a.Fits) :
    r.optional "attributes" [] (Json.listOf Attribute.ofJson? room) = some attributes := by
  refine Json.Record.optional_of h fun j hj hd => ?_
  refine Json.listOf_of hj hd fun a ha _ _ hj hd => ?_
  exact Attribute.ofJson?_of_spelledBy (hfits a ha) hj hd

theorem Property.ofJson?_of_spelledBy {p : Property} {j : Json} {room : Nat} (hfits : p.Fits)
    (h : p.SpelledBy j) (hdepth : j.depth ≤ room) : ofJson? room j = some p := by
  obtain ⟨room, rfl, r, hr, hname, hline, hattributes⟩ := h.read (by simp [lineField]) hdepth
  refine ofJson?_eq_some_iff.mpr ⟨room, rfl, r, hr, ?_, line_of hline hfits.line,
    attributes_of hattributes hfits.attributes⟩
  exact Json.Record.required_of hname fun j hj _ => text_of hj

theorem ConstructorSignature.ofJson?_of_spelledBy {c : ConstructorSignature} {j : Json}
    {room : Nat} (hfits : IsWord c.line) (h : c.SpelledBy j) (hdepth : j.depth ≤ room) :
    ofJson? room j = some c := by
  obtain ⟨room, rfl, r, hr, hline, hparameters⟩ := h.read (by simp [lineField]) hdepth
  refine ofJson?_eq_some_iff.mpr ⟨room, rfl, r, hr, line_of hline hfits, ?_⟩
  exact Json.Record.optional_of hparameters fun j hj hd => texts_of hj hd

theorem ConstructorSignature.ofJson?_null (room : Nat) : ofJson? room .null = none := by
  cases room <;> rfl

theorem ClassKind.wordOf_word (kind : ClassKind) (room : Nat) :
    Json.wordOf ofWord? room (.ofString kind.word) = some kind := by
  cases kind <;> rfl

theorem ClassDeclaration.ofJson?_of_spelledBy {d : ClassDeclaration} {j : Json} {room : Nat}
    (hfits : d.Fits) (h : d.SpelledBy j) (hdepth : j.depth ≤ room) :
    ofJson? room j = some d := by
  obtain ⟨room, rfl, r, hr, hname, hkind, hline, hattributes, hproperties, hconstructor⟩ :=
    h.read (by simp [lineField]) hdepth
  refine ofJson?_eq_some_iff.mpr ⟨room, rfl, r, hr, ?_, ?_, line_of hline hfits.line,
    attributes_of hattributes hfits.attributes, ?_, ?_⟩
  · exact Json.Record.required_of hname fun j hj _ => text_of hj
  · exact Json.Record.optional_of hkind fun j hj _ => hj ▸ d.kind.wordOf_word room
  · refine Json.Record.optional_of hproperties fun j hj hd => ?_
    refine Json.listOf_of hj hd fun p hp _ _ hj hd => ?_
    exact Property.ofJson?_of_spelledBy (hfits.properties p hp) hj hd
  · refine Json.Record.optional_of hconstructor fun j hj hd => ?_
    refine Json.nullable_of (ConstructorSignature.ofJson?_null room) hj hd fun c hc _ hj hd => ?_
    exact ConstructorSignature.ofJson?_of_spelledBy (hfits.constructorLine c hc) hj hd

theorem ClassDeclaration.ofJson?_null (room : Nat) : ofJson? room .null = none := by
  cases room <;> rfl

/-! ### Reading documents -/

theorem ConstructorFacts.ofJson?_of_spelledBy {c : ConstructorFacts} {j : Json} {room : Nat}
    (hfits : c.Fits) (h : c.SpelledBy j) (hdepth : j.depth ≤ room) :
    ofJson? room j = some c := by
  obtain ⟨room, rfl, r, hr, hparameters, hline⟩ := h.read (by simp) hdepth
  refine ofJson?_eq_some_iff.mpr ⟨room, rfl, r, hr, ?_, ?_⟩
  · exact Json.Record.required_of hparameters fun j hj _ => nat_of hj hfits.parameters
  · refine Json.Record.optional_of hline fun j hj hd => ?_
    exact Json.nullable_of rfl hj hd fun n hn j hj _ => nat_of hj (hfits.line n hn)

theorem ConstructorFacts.ofJson?_null (room : Nat) : ofJson? room .null = none := by
  cases room <;> rfl

theorem nullable_path_of {path? : Option Path} {j : Json} {room : Nat}
    (h : nullableSpelling pathSpelling path? j) (hdepth : j.depth ≤ room) :
    Json.nullable Path.ofJson? j = some path? :=
  Json.nullable_of rfl h hdepth fun _ _ _ hj _ => hj ▸ rfl

theorem Reflection.ofJson?_of_spelledBy {c : Reflection} {j : Json} {room : Nat} (hfits : c.Fits)
    (h : c.SpelledBy j) (hdepth : j.depth ≤ room) : ofJson? room j = some c := by
  obtain ⟨room, rfl, r, hr, hname, hfile, hline, hisAbstract, hancestors, hconstructor,
    hattributes⟩ := h.read (by simp [lineField]) hdepth
  refine ofJson?_eq_some_iff.mpr ⟨room, rfl, r, hr, ?_, ?_, line_of hline hfits.line, ?_, ?_, ?_,
    attributes_of hattributes hfits.attributes⟩
  · exact Json.Record.required_of hname fun j hj _ => text_of hj
  · exact Json.Record.optional_of hfile fun j hj hd => nullable_path_of hj hd
  · exact Json.Record.optional_of hisAbstract fun j hj _ => hj ▸ rfl
  · exact Json.Record.optional_of hancestors fun j hj hd => texts_of hj hd
  · refine Json.Record.optional_of hconstructor fun j hj hd => ?_
    refine Json.nullable_of (ConstructorFacts.ofJson?_null room) hj hd fun k hk _ hj hd => ?_
    exact ConstructorFacts.ofJson?_of_spelledBy (hfits.constructorFacts k hk) hj hd

theorem ClassEntry.ofJson?_of_spelledBy {e : ClassEntry} {j : Json} {room : Nat} (hfits : e.Fits)
    (h : e.SpelledBy j) (hdepth : j.depth ≤ room) : ofJson? room j = some e := by
  obtain ⟨room, rfl, r, hr, hfile, hdeclaration, hreflection⟩ := h.read (by simp) hdepth
  refine ofJson?_eq_some_iff.mpr ⟨room, rfl, r, hr, ?_, ?_, ?_⟩
  · exact Json.Record.optional_of hfile fun j hj hd => nullable_path_of hj hd
  · refine Json.Record.optional_of hdeclaration fun j hj hd => ?_
    refine Json.nullable_of (ClassDeclaration.ofJson?_null room) hj hd fun d hmem _ hj hd => ?_
    exact ClassDeclaration.ofJson?_of_spelledBy (hfits.declaration d hmem) hj hd
  · refine Json.Record.required_of hreflection fun j hj hd => ?_
    exact Reflection.ofJson?_of_spelledBy hfits.reflection hj hd

theorem Model.ofJson?_of_spelledBy {m : Model} {j : Json} {room : Nat} (hfits : m.Fits)
    (h : m.SpelledBy j) (hdepth : j.depth ≤ room) : ofJson? room j = some m := by
  obtain ⟨room, rfl, r, hr, hclasses⟩ := h.read (by simp) hdepth
  refine ofJson?_eq_some_iff.mpr ⟨room, rfl, r, hr, ?_⟩
  refine Json.Record.optional_of hclasses fun j hj hd => ?_
  refine Json.listOf_of hj hd fun e he _ _ hj hd => ?_
  exact ClassEntry.ofJson?_of_spelledBy (hfits e he) hj hd

/-! ### Texts of documents -/

theorem ClassEntry.settleFile_eq (e : ClassEntry) : e.settleFile =
    { e with reflection := { e.reflection with file := e.file?.or e.reflection.file } } := by
  obtain ⟨_ | file, declaration?, reflection⟩ := e <;> rfl

theorem Model.settleFiles_eq (m : Model) : m.settleFiles = ⟨m.classes.map fun e =>
    { e with reflection := { e.reflection with file := e.file?.or e.reflection.file } }⟩ :=
  congrArg Model.mk (List.map_congr_left fun e _ => e.settleFile_eq)

theorem Model.parse_eq_some_iff {text : String} {m : Model} : parse text = some m ↔
    ∃ j, Json.parse text = some j ∧ ∃ m', ofJson? 127 j = some m' ∧ m'.settleFiles = m := by
  simp only [parse, Json.maxDepth, Option.bind_eq_bind, Option.bind_eq_some_iff, Option.pure_def,
    Option.some.injEq]

/-- **Every text of a document means that document.**  Whatever spelling is chosen for each record
in it, and however that is written, reading gives the document itself, in which each entry that
has a file has passed it on to its resolved class. -/
theorem Model.parse_of_spelledBy {m : Model} {j : Json} {text : String} (hfits : m.Fits)
    (h : m.SpelledBy j) (htext : j.IsText text) (hdepth : j.depth ≤ 127) :
    parse text = some ⟨m.classes.map fun e =>
      { e with reflection := { e.reflection with file := e.file?.or e.reflection.file } }⟩ := by
  rw [← settleFiles_eq, parse_eq_some_iff]
  exact ⟨j, Json.parse_of_isText htext, m, ofJson?_of_spelledBy hfits h hdepth, rfl⟩

/-- A document of one class, which is only referred to. -/
def indexedDay : Model where
  classes := [{
    file? := some ⟨"src/Day.php"⟩
    declaration? := none
    reflection := { Reflection.ofName "App\\Day" with
      line := 3
      attributes := [⟨"Index", 0, [⟨none,
        .array [⟨some (.string "name" 4), .classConst (some "Day") none 4, 0⟩] 0, 0⟩]⟩] } }]

/-- The key in the document, its kind among the other fields and one more member behind them. -/
def indexedDayKey : Json :=
  .ofMembers [("value", .ofString "name"), ("kind", .ofString "string"), ("line", .ofNat 4),
    ("raw", .array [])]

/-- The argument in the document, its kind in the last place and its item as an array. -/
def indexedDayNames : Json :=
  .ofMembers [("items", .array [.array [indexedDayKey,
    .array [.ofString "class_const", .ofString "Day", .null, .ofNat 4]]]),
    ("kind", .ofString "array")]

/-- The resolved class, with one more member that is no text. -/
def indexedDayReflection : Json :=
  .ofMembers [("line", .ofNat 3), ("name", .ofString "App\\Day"),
    ("attributes", .array [.array [.ofString "Index", .ofNat 0,
      .array [.array [.null, indexedDayNames]]]]),
    ("note", .string none)]

/-- A spelling of the document, with the entry as an array. -/
def indexedDaySpelling : Json :=
  .ofMembers [("version", .ofNat 2),
    ("classes", .array [.array [.ofString "src/Day.php", .null, indexedDayReflection]])]

theorem fits_indexedDay : indexedDay.Fits := by
  intro e he
  cases List.mem_singleton.mp he
  refine ⟨nofun, by simp [IsWord], nofun, fun a ha => ?_⟩
  cases List.mem_singleton.mp ha
  refine ⟨by simp [IsWord], fun arg harg => ?_⟩
  cases List.mem_singleton.mp harg
  refine ⟨?_, by simp [IsWord]⟩
  simp [Expr.Fits, Expr.ItemsFit, IsWord]

theorem spelledBy_indexedDay : indexedDay.SpelledBy indexedDaySpelling := by
  have hkey : (Expr.string "name" 4).SpelledBy indexedDayKey :=
    @Spelling.object _ _ [_, _, _] [("raw", .array [])] _
      (.written rfl (.written rfl (.written rfl .nil)))
      (by simp [kindField, lineField, clean, Json.isClean, Json.isCleanItems]) (.swap _ _ _)
  have hvalue : (Expr.classConst (some "Day") none 4).SpelledBy
      (.array [.ofString "class_const", .ofString "Day", .null, .ofNat 4]) :=
    .array (.written rfl (.written rfl (.written rfl (.written rfl (.rest nofun)))))
  have hnames : (Expr.array [⟨some (.string "name" 4), .classConst (some "Day") none 4, 0⟩]
      0).SpelledBy indexedDayNames := by
    refine @Spelling.object _ _ [_, _] [] _ (.written rfl (.written ?_ (.omitted rfl .nil)))
      nofun (.swap _ _ _)
    refine ⟨_, rfl, _, _, rfl, ?_, rfl⟩
    exact .array (.written hkey (.written hvalue (.rest (by simp [lineField, defaulted]))))
  have hargument : (⟨none, .array [⟨some (.string "name" 4), .classConst (some "Day") none 4, 0⟩]
      0, 0⟩ : Argument).SpelledBy (.array [.null, indexedDayNames]) :=
    .array (.written rfl (.written hnames (.rest (by simp [lineField, defaulted]))))
  refine @Spelling.object _ _ [_] [("version", .ofNat 2)] _ (.written ?_ .nil)
    (by simp [anything]) (.swap _ _ _)
  refine ⟨_, rfl, .cons (.array (.written rfl (.written rfl (.written ?_ (.rest nofun))))) .nil⟩
  refine @Spelling.object _ _ [_, _, _] [("note", .string none)] _ (.written rfl (.omitted rfl
    (.written rfl (.omitted rfl (.omitted rfl (.omitted rfl (.written ?_ .nil)))))))
    (by simp [lineField, anything]) (.swap _ _ _)
  refine ⟨_, rfl, .cons (.array (.written rfl (.written rfl (.written ?_ (.rest nofun))))) .nil⟩
  exact ⟨_, rfl, .cons hargument .nil⟩

theorem Model.parse_of_spelledBy_indexedDay :
    indexedDay.Fits ∧ indexedDay.SpelledBy indexedDaySpelling ∧ indexedDaySpelling.depth ≤ 127 ∧
      Model.parse ("\n" ++ indexedDaySpelling.compact ++ " ") =
        some ⟨indexedDay.classes.map fun e =>
          { e with reflection := { e.reflection with file := some ⟨"src/Day.php"⟩ } }⟩ := by
  have htext : indexedDaySpelling.IsText ("\n" ++ indexedDaySpelling.compact ++ " ") :=
    ⟨['\n'], Json.Printer.flat indexedDaySpelling, [' '], by simp [Json.Blank],
      Json.written_flat _, by simp [Json.Blank], by simp [Json.compact]⟩
  have hdepth : indexedDaySpelling.depth ≤ 127 := by decide
  exact ⟨fits_indexedDay, spelledBy_indexedDay, hdepth,
    Model.parse_of_spelledBy fits_indexedDay spelledBy_indexedDay htext hdepth⟩

end EntityConventions
