import MarkupGrammar.Module.Graph
import MarkupGrammar.Proofs.Corpus.Textual
import MarkupGrammar.Proofs.Module.RoundTrip
import MarkupGrammar.Proofs.RelaxNg.Element

/-!
# Compiled schemas are kept by their modules

There are two ways to a schema: a corpus is compiled, or a grammar in the syntax of RELAX NG is
imported. Either way the schema survives being saved and loaded. Both have to make sure of what a
module relies on: elements are written under their own names and only once, their descriptions are
not empty, and their children are those of their content models.

Of a corpus this takes that it names things by texts. A grammar is a text itself, and so are all
names in it.

## Main results

* `isStorable_of_compileCorpus`, `isStorable_of_parseRng` — compiled schemas can be stored
* `Schema.isKept_of_compiled` — they are loaded as they were saved
-/

namespace MarkupGrammar

/-! ### Schemas of a corpus -/

theorem Particle.IsTextual.isText_key {p : Particle Json} (hp : p.IsTextual)
    (hkind : p.kind.isReference = true) : ∀ k ∈ p.key, Label.IsText k := by
  cases hp with
  | intro hkey _ => exact hkey hkind

theorem Particle.IsTextual.of_mem_content {p q : Particle Json} (hp : p.IsTextual)
    (hq : q ∈ p.content) : q.IsTextual := by
  cases hp with
  | intro _ hcontent => exact hcontent q hq

namespace CorpusIndex

variable {index : CorpusIndex Json}

theorem IsKept.isTextual (hi : index.IsKept) (hd : index.IsDictionary) : index.IsTextual :=
  ⟨hd.macros, hi.macros⟩

theorem IsKept.isText_of_mem_membersOf (hi : index.IsKept) {c name : Json}
    (h : name ∈ index.membersOf c) : Label.IsText name := by
  rw [membersOf] at h
  cases hfind : index.modelClasses.find? c with
  | none =>
    rw [hfind] at h
    exact nomatch h
  | some members =>
    rw [hfind] at h
    obtain ⟨k, hk⟩ := Table.exists_mem_of_find? hfind
    exact hi.members _ hk name h

/-- Whatever a particle reaches has a text for its name. -/
theorem IsKept.isText_of_reaches (hi : index.IsKept) (hd : index.IsDictionary)
    {visited : List Json} {p : Particle Json} {name : Json} (hp : p.IsTextual)
    (h : index.Reaches visited p name) : Label.IsText name := by
  induction h with
  | element hkind hkey _ => exact hp.isText_key (by rw [hkind]; rfl) _ hkey
  | member _ _ _ hname => exact hi.isText_of_mem_membersOf hname
  | part _ hq _ ih => exact ih (hp.of_mem_content hq)
  | viaMacro _ _ _ _ hfind hps hq _ ih => exact ih ((hi.isTextual hd).of_find? hfind hps _ hq)

/-- The compiled definition of an element is kept. -/
theorem IsKept.isStorable_compileElement (hi : index.IsKept) (hd : index.IsDictionary)
    {e : Json × ElementDef Json} (he : e ∈ index.elements) :
    (index.compileElement e.2).IsStorable := by
  obtain ⟨-, -, hdocumentation, hattributes, hcontent⟩ := hi.elements e he
  refine ⟨fun d hd => ?_, hattributes, ?_⟩
  · obtain ⟨t, ht, rfl⟩ := Option.map_eq_some_iff.mp hd
    cases t with
    | nil => exact (hdocumentation ht).elim
    | cons c t => rfl
  · have hnames := fun name => mem_names_compileContent (hi.isTextual hd) [] hcontent name
    rw [compileElement]
    cases hm : index.compileContent [] e.2.content with
    | none => exact Or.inr rfl
    | some m =>
      refine Or.inl ⟨m, rfl, fun n hn => ?_⟩
      rw [hm] at hnames
      obtain ⟨p, hp, hreaches⟩ := (hnames n).mp hn
      exact hi.isText_of_reaches hd (hcontent p hp) hreaches

/-- The schema of an index is kept. -/
theorem IsKept.isStorable_toSchema (hi : index.IsKept) (hd : index.IsDictionary) {id name : Json}
    (hs : (index.toSchema id name).isUsable = true) : (index.toSchema id name).IsStorable where
  distinct := List.pairwise_map.mpr hd.elements
  elements := by
    intro e he
    obtain ⟨⟨key, d⟩, hmem, rfl⟩ := List.mem_map.mp he
    exact ⟨(hi.elements _ hmem).1, (hi.elements _ hmem).2.1, hi.isStorable_compileElement hd hmem⟩
  attributeClasses := by
    intro e he
    obtain ⟨⟨key, c⟩, hmem, rfl⟩ := List.mem_map.mp he
    exact hi.attributeClasses _ hmem
  inheritance := by
    intro e he
    obtain ⟨⟨key, c⟩, hmem, rfl⟩ := List.mem_map.mp he
    exact (hi.attributeClasses _ hmem).1
  elementClasses := by
    intro e he
    obtain ⟨⟨key, d⟩, hmem, rfl⟩ := List.mem_map.mp he
    exact (hi.elements _ hmem).1
  isUsable := hs

end CorpusIndex

/-- Compilation reads the corpus, then makes a schema of the index; logging changes neither. -/
theorem result_compileCorpus (corpus id name : Json) :
    (compileCorpus corpus id name).result
      = (Corpus.ingest corpus).bind fun index => index.build id name := by
  rw [compileCorpus, Logged.andThen, Logged.phase]
  cases Corpus.ingest corpus with
  | error e => rfl
  | ok index =>
    simp only [Logged.phase, Except.bind]
    cases index.build id name <;> rfl

/-- What is compiled from a corpus is kept. -/
theorem isStorable_of_compileCorpus {corpus id name : Json} (hcorpus : corpus.namesAreTexts = true)
    {s : Schema Json} (h : (compileCorpus corpus id name).result = .ok s) : s.IsStorable := by
  rw [result_compileCorpus] at h
  obtain ⟨index, hindex, h⟩ := exists_of_bind_eq_ok h
  rw [CorpusIndex.build] at h
  split at h
  · next husable =>
    obtain rfl := Except.ok.inj h
    exact (Corpus.ingest_isKept hcorpus hindex).isStorable_toSchema
      (Corpus.ingest_isDictionary hindex) (Bool.and_eq_true_iff.mp husable).2
  · exact nomatch h

/-! ### Schemas of a RELAX NG grammar -/

mutual

theorem ContentModel.names_map {Name Other : Type} (f : Name → Other) (m : ContentModel Name) :
    (m.map f).names = m.names.map f := by
  obtain ⟨arrangement, items, bounds⟩ := m
  rw [ContentModel.map, ContentModel.names, ContentModel.names, Item.namesOfAll_mapAll]
termination_by (sizeOf m, 1)

theorem Item.namesOfAll_mapAll {Name Other : Type} (f : Name → Other) (items : List (Item Name)) :
    Item.namesOfAll (Item.mapAll f items) = (Item.namesOfAll items).map f := by
  cases items with
  | nil => rfl
  | cons item items =>
    rw [Item.mapAll, Item.namesOfAll, Item.namesOfAll, Item.names_map f item,
      Item.namesOfAll_mapAll f items, List.map_append]
termination_by (sizeOf items, 0)

theorem Item.names_map {Name Other : Type} (f : Name → Other) (item : Item Name) :
    (item.map f).names = item.names.map f := by
  cases item with
  | group content bounds => rw [Item.map, Item.names, Item.names, ContentModel.names_map f content]
  | _ => rfl
termination_by (sizeOf item, 0)

end

theorem AttributeSpec.isStorable_map (a : AttributeSpec Text) : (a.map Json.text).IsStorable := by
  have htext : ∀ v : Option Text, v.map Json.text ≠ some .null := by
    rintro (_ | t) <;> exact nofun
  exact ⟨htext _, htext _, htext _⟩

namespace RelaxNg

/-- A description is not empty. -/
theorem documentation_ne_nil (node : XmlNode) : documentation node ≠ some [] := by
  intro h
  rw [documentation, Option.bind_eq_some_iff] at h
  obtain ⟨d, -, h⟩ := h
  rw [unlessEmpty] at h
  split at h
  · exact nomatch h
  · next hempty => exact hempty (congrArg List.isEmpty (Option.some.inj h))

end RelaxNg

namespace RngGrammar

theorem mem_of_mem_namedElements {g : RngGrammar} {e : ElementPattern} (h : e ∈ g.namedElements) :
    e ∈ g.elements := by
  have hkeeps : ∀ (elements found : List ElementPattern), (∀ f ∈ found, f ∈ g.elements) →
      (∀ f ∈ elements, f ∈ g.elements) →
      ∀ f ∈ elements.foldl (fun found e =>
        if e.name.isEmpty || found.any fun (f : ElementPattern) => f.name = e.name then found
        else found ++ [e]) found, f ∈ g.elements := by
    intro elements
    induction elements with
    | nil => exact fun found h _ => h
    | cons e elements ih =>
      intro found hfound helements
      refine ih _ ?_ fun f hf => helements f (List.mem_cons_of_mem e hf)
      beta_reduce
      split
      · exact hfound
      · intro f hf
        rcases List.mem_append.mp hf with hf | hf
        · exact hfound f hf
        · obtain rfl := List.mem_singleton.mp hf
          exact helements f List.mem_cons_self
  exact hkeeps g.elements [] (fun _ h => (nomatch h)) (fun _ h => h) e h

/-- The definition of an element of a grammar is kept, with texts for names. -/
theorem isStorable_elementSpec {root : XmlNode} {e : ElementPattern}
    (he : e ∈ (RelaxNg.ofXml root).namedElements) :
    (((RelaxNg.ofXml root).elementSpec e).map Json.text).IsStorable := by
  have hdocumentation : e.documentation ≠ some [] := by
    obtain ⟨node, -, rfl⟩ := List.mem_map.mp (mem_of_mem_namedElements he)
    exact RelaxNg.documentation_ne_nil node
  refine ⟨fun d hd => ?_, fun a ha => ?_, ?_⟩
  · obtain ⟨t, ht, rfl⟩ := Option.map_eq_some_iff.mp hd
    cases t with
    | nil => exact (hdocumentation ht).elim
    | cons c t => rfl
  · obtain ⟨b, -, rfl⟩ := List.mem_map.mp ha
    exact b.isStorable_map
  · rw [elementSpec, ElementSpec.map]
    cases Pattern.contentModel (Pattern.expandAll (RelaxNg.ofXml root).defines e.body) with
    | none => exact Or.inr rfl
    | some m =>
      refine Or.inl ⟨_, rfl, fun n hn => ?_⟩
      rw [ContentModel.names_map] at hn
      obtain ⟨t, -, rfl⟩ := List.mem_map.mp hn
      exact ⟨t, rfl⟩

end RngGrammar

namespace Schema

/-- The schema of elements that stand on their own keeps a dictionary of them. -/
theorem elements_ofElements (id name : Json) {es : List (ElementSpec Json)}
    (hnames : ∀ e ∈ es, Label.IsText e.name) (hdistinct : es.Pairwise fun e f => e.name ≠ f.name) :
    (ofElements id name es).elements = es.map (fun e => (e.name, e))
      ∧ (ofElements id name es).elements.Distinct := by
  have hentries : Table.Distinct (es.map fun e => (e.name, e)) := by
    refine List.pairwise_map.mpr (hdistinct.imp_of_mem fun {e f} he hf hne => ?_)
    exact Bool.eq_false_iff.mpr (mt ((hnames e he).beq_iff' f.name).mp hne)
  rw [ofElements, Table.ofEntries_eq hentries]
  exact ⟨rfl, hentries⟩

/-- Elements without classes have the attributes that they define. -/
theorem candidates_ofElements (id name : Json) (es : List (ElementSpec Json))
    {e : ElementSpec Json} (h : e.attributeClasses = []) :
    (ofElements id name es).classesOf e = [] ∧
      (ofElements id name es).candidates e = e.attributes := by
  have hclasses : (ofElements id name es).classesOf e = [] := by
    rw [classesOf, declaredClasses, ofElements]
    simp only [Table.find?, h]
    rw [reachedClasses]
  exact ⟨hclasses, by rw [candidates, hclasses, List.flatMap_nil, List.append_nil]⟩

/-- Elements that stand on their own make a schema that is kept when each of them is. -/
theorem isStorable_ofElements (id name : Json) {es : List (ElementSpec Json)}
    (hnames : ∀ e ∈ es, Label.IsText e.name) (hdistinct : es.Pairwise fun e f => e.name ≠ f.name)
    (hclasses : ∀ e ∈ es, e.attributeClasses = [])
    (hattributes : ∀ e ∈ es, ∀ a ∈ e.attributes, Label.IsText a.name)
    (hes : ∀ e ∈ es, e.IsStorable) : (ofElements id name es).IsStorable := by
  obtain ⟨helements, hentries⟩ := elements_ofElements id name hnames hdistinct
  refine ⟨hentries, ?_, nofun, nofun, nofun, ?_⟩
  · rw [helements]
    intro entry hentry
    obtain ⟨e, he, rfl⟩ := List.mem_map.mp hentry
    exact ⟨hnames e he, rfl, hes e he⟩
  · rw [isUsable, helements, List.all_eq_true]
    intro entry hentry
    obtain ⟨e, he, rfl⟩ := List.mem_map.mp hentry
    obtain ⟨hnone, hown⟩ := candidates_ofElements id name es (hclasses e he)
    rw [Bool.and_eq_true, canResolve, hnone, hown]
    refine ⟨List.all_eq_true.mpr fun n hn =>
      ((hes e he).isWritable.isText_children n hn).isName, ?_⟩
    exact List.all_eq_true.mpr fun a ha => (hattributes e he a ha).isName

end Schema

/-- What is imported from a grammar is kept. -/
theorem isStorable_of_parseRng {document : Text} {specs : List (ElementSpec Text)}
    (h : parseRng document = .ok specs) (id name : Json) :
    (Schema.ofRng id name specs).IsStorable := by
  obtain ⟨root, -, -, -, rfl⟩ := parseRng_eq_ok_iff.mp h
  have hspecs : ∀ e ∈ ((RelaxNg.ofXml root).elementSpecs).map (·.map Json.text),
      ∃ p ∈ (RelaxNg.ofXml root).namedElements,
        ((RelaxNg.ofXml root).elementSpec p).map Json.text = e := by
    intro e he
    obtain ⟨spec, hspec, rfl⟩ := List.mem_map.mp he
    obtain ⟨p, hp, rfl⟩ := RngGrammar.mem_elementSpecs_iff.mp hspec
    exact ⟨p, hp, rfl⟩
  refine Schema.isStorable_ofElements id name ?_ ?_ ?_ ?_ ?_
  · intro e he
    obtain ⟨p, -, rfl⟩ := hspecs e he
    exact ⟨p.name, rfl⟩
  · refine List.pairwise_map.mpr ((RelaxNg.ofXml root).distinct_elementSpecs.imp fun hne heq => ?_)
    exact hne (Json.text.inj heq)
  · intro e he
    obtain ⟨p, -, rfl⟩ := hspecs e he
    rfl
  · intro e he a ha
    obtain ⟨p, -, rfl⟩ := hspecs e he
    obtain ⟨b, -, rfl⟩ := List.mem_map.mp ha
    exact ⟨b.name, rfl⟩
  · intro e he
    obtain ⟨p, hp, rfl⟩ := hspecs e he
    exact RngGrammar.isStorable_elementSpec hp

/-! ### Saving and loading -/

namespace Schema

/-- What saving a schema and loading it again gives back: the schema itself, and with it the
attributes of every element, each of which is found. -/
def IsKept (s : Schema Json) : Prop :=
  ∃ v, s.dump = .ok v ∧ Module.load v = .ok s ∧
    ∀ key e, s.element? key = some e → s.resolve key = .ok (s.attributesOf key)

/-- The attributes of every element of a usable schema are found. -/
theorem IsStorable.resolve_eq {s : Schema Json} (h : s.IsStorable) {key : Json}
    {e : ElementSpec Json} (he : s.element? key = some e) :
    s.resolve key = .ok (s.attributesOf key) := by
  obtain ⟨k, hmem, hbeq⟩ := Table.exists_mem_beq_of_find? he
  obtain ⟨t, rfl⟩ := (h.elements _ hmem).1
  obtain rfl := (LawfulLabel.ofText_beq_iff key t).mp hbeq
  have husable := List.all_eq_true.mp h.isUsable _ hmem
  rw [resolve, if_pos]
  simp only [he, Option.map_some, Option.getD_some]
  exact (Bool.and_eq_true_iff.mp husable).2

theorem IsStorable.isKept {s : Schema Json} (h : s.IsStorable) : s.IsKept := by
  obtain ⟨v, hdump, hload⟩ := exists_dump_load h
  exact ⟨v, hdump, hload, fun _ _ => h.resolve_eq⟩

/-- **A compiled schema survives its module,** whether it comes from a corpus whose names are texts
or from a grammar that is imported. -/
theorem isKept_of_compiled (id name : Json) :
    (∀ corpus : Json, corpus.namesAreTexts = true →
      ∀ s, (compileCorpus corpus id name).result = .ok s → s.IsKept) ∧
    ∀ document specs, parseRng document = .ok specs → (ofRng id name specs).IsKept :=
  ⟨fun _ hcorpus _ hs => (isStorable_of_compileCorpus hcorpus hs).isKept,
    fun _ _ hspecs => (isStorable_of_parseRng hspecs id name).isKept⟩

/-- A corpus with an element that may hold itself, and a class that it takes an attribute from. -/
def nestedLists : Json :=
  .ofFields
    [("elements", .array
      [.ofFields
        [("ident", .string "list"), ("shortDesc", .string "a list"),
         ("classes", .ofFields [("atts", .array [.string "att.global"])]),
         ("attributes", .array [.ofFields [("ident", .string "n"), ("usage", .string "req")]]),
         ("content", .array
           [.ofFields [("type", .string "elementRef"), ("key", .string "list"),
             ("minOccurs", .int 0), ("maxOccurs", .string "unbounded")]])]]),
     ("classes", .ofFields
       [("attributes", .array
         [.ofFields
           [("ident", .string "att.global"),
            ("attributes", .array [.ofFields [("ident", .string "id")]])]])])]

/-- What is read of the corpus. -/
def nestedListsIndex : CorpusIndex Json where
  title := none
  edition := none
  elements :=
    [(.string "list",
      { name := .string "list"
        documentation := some (Text.ofString "a list")
        attributeClasses := [.string "att.global"]
        modelClasses := []
        attributes := [⟨.string "n", true, none, none, none, none, none⟩]
        content := some [⟨.elementRef, some (.string "list"), Bounds.anyNumber, []⟩] })]
  macros := []
  modelClasses := []
  attributeClasses :=
    [(.string "att.global",
      ⟨.string "att.global", [], [⟨.string "id", false, none, none, none, none, none⟩], none⟩)]
  datatypes := []

/-- The names of an element's children, and those of its attributes. -/
def namesAt (s : Schema Json) (key : String) : Option (List Json × List Json) :=
  (s.element? (.string key)).map fun e =>
    (e.children, (s.attributesOf (.string key)).map (·.name))

/-- Whether there is a schema in which an element has certain children and attributes. -/
def hasNames (r : Except ReadError (Schema Json)) (key : String)
    (children attributes : List String) : Bool :=
  match r with
  | .error _ => false
  | .ok s => namesAt s key == some (children.map Json.string, attributes.map Json.string)

theorem exists_of_hasNames {r : Except ReadError (Schema Json)} {key : String}
    {children attributes : List String} (h : hasNames r key children attributes = true) :
    ∃ s, r = .ok s ∧
      (namesAt s key == some (children.map Json.string, attributes.map Json.string)) = true := by
  cases r with
  | error e => exact nomatch h
  | ok s => exact ⟨s, rfl, h⟩

/-- A grammar of nested lists. -/
def nestedListsGrammar : Text :=
  Text.ofString "<grammar xmlns=\"http://relaxng.org/ns/structure/1.0\"><element name=\"list\">"
    ++ Text.ofString "<attribute name=\"n\"/><zeroOrMore><element name=\"list\"/></zeroOrMore>"
    ++ Text.ofString "</element></grammar>"

/-- Nested lists are compiled from the corpus and imported from the grammar, and kept. -/
theorem isKept_nestedLists :
    nestedLists.namesAreTexts = true ∧
    (∃ s, (compileCorpus nestedLists (.string "lists") (.string "Lists")).result = .ok s ∧
      (namesAt s "list" == some ([.string "list"], [.string "n", .string "id"])) = true ∧
        s.IsKept) ∧
    ∃ specs, parseRng nestedListsGrammar = .ok specs ∧
      (∃ spec ∈ specs, (spec.children == [Text.ofString "list"]) = true) ∧
        (ofRng (.string "lists") (.string "Lists") specs).IsKept := by
  have hnames : nestedLists.namesAreTexts = true := by decide +kernel
  have hbuild : hasNames (nestedListsIndex.build (.string "lists") (.string "Lists")) "list"
      ["list"] ["n", "id"] = true := by
    cbv
  have hgrammar : importsElement (fun spec => spec.children == [Text.ofString "list"])
      nestedListsGrammar = true := by
    decide +kernel
  have hkept := isKept_of_compiled (.string "lists") (.string "Lists")
  obtain ⟨s, hs, hshows⟩ := exists_of_hasNames hbuild
  obtain ⟨specs, hspecs, hchildren⟩ := exists_mem_of_importsElement hgrammar
  have hresult :
      (compileCorpus nestedLists (.string "lists") (.string "Lists")).result = .ok s := by
    rw [result_compileCorpus, show Corpus.ingest nestedLists = .ok nestedListsIndex from rfl]
    exact hs
  exact ⟨hnames, ⟨s, hresult, hshows, hkept.1 _ hnames s hresult⟩, specs, hspecs, hchildren,
    hkept.2 _ specs hspecs⟩

end Schema

end MarkupGrammar
