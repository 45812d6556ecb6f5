import DTLite.Common.StyleFile

/-!
# A style file read back

What the parser makes of a file that `dt_styles_save_to_file` has written, and which style
`dt_styles_import_from_file` leaves in a library that does not have it.
-/

namespace DTLite

open Reasoning List StyleTables StyleParser

/-! ## What the parser makes of the file -/

theorem atoi_printInt (n : Int32) : atoi (printInt n.toInt) = n := by
  have hlow := n.minValue_le_toInt
  have hhigh := n.toInt_lt
  rw [atoi, strtol_printInt]
  show Int32.ofInt (min 9223372036854775807 (max (-9223372036854775808) n.toInt)) = n
  rw [show Int32.minValue.toInt = -2147483648 from rfl] at hlow
  rw [max_eq_right (by omega), min_eq_right (by omega), Int32.ofInt_toInt]

variable {db : StyleTables} {name : Text} {elt : StyleElement}

section Parser

variable (elements : List StyleElement) (style : StyleData)

theorem foldl_writeElement (helt : elt ≠ .plugin) {text : Text}
    (htext : text ≠ [] ∨ dtStylesStyleTextHandler style elt [] = style) :
    (writeElement elt text).foldl step ⟨elements, style⟩ =
      ⟨elements, dtStylesStyleTextHandler style elt text⟩ := by
  have hstart : dtStylesStartTagHandler style elt = style := if_neg helt
  have hend : ∀ style, dtStylesEndTagHandler style elt = style := fun _ => if_neg helt
  by_cases hempty : text = []
  · have hsame := htext.resolve_left (not_not.mpr hempty)
    rw [hempty, hsame]
    show (⟨elements, dtStylesEndTagHandler (dtStylesStartTagHandler style elt) elt⟩ : StyleParser) =
      _
    rw [hstart, hend]
  · rw [writeElement, if_neg hempty]
    show (⟨elements, dtStylesEndTagHandler
      (dtStylesStyleTextHandler (dtStylesStartTagHandler style elt) elt text) elt⟩ :
        StyleParser) = _
    rw [hstart, hend]

end Parser

def isPluginField : StyleElement → Bool
  | .plugin | .name | .description | .iopList => false
  | _ => true

def isTextField : StyleElement → Bool
  | .operation | .opParams | .blendopParams | .multiName => true
  | _ => false

def StyleData.newest (style : StyleData) (plug : StylePluginData) : StyleData :=
  { style with inPlugin := true, plugins := plug :: style.plugins }

section Plugin

variable (elements : List StyleElement) (style : StyleData) (plug : StylePluginData)

theorem textHandler_newest (helt : isPluginField elt = true) (text : Text) :
    dtStylesStyleTextHandler (style.newest plug) elt text =
      style.newest (fillPlugin plug elt text) := by
  cases elt with
  | plugin | name | description | iopList => cases helt
  | _ => rfl

theorem fillPlugin_nil (helt : isTextField elt = true) : fillPlugin plug elt [] = plug := by
  cases elt with
  | operation | opParams | blendopParams | multiName => simp only [fillPlugin, append_nil]
  | _ => cases helt

theorem foldl_text (helt : isPluginField elt = true) (htext : isTextField elt = true)
    (text : Text) :
    (writeElement elt text).foldl step ⟨elements, style.newest plug⟩ =
      ⟨elements, style.newest (fillPlugin plug elt text)⟩ := by
  have hne : elt ≠ .plugin := by
    rintro rfl
    cases helt
  have hnil : dtStylesStyleTextHandler (style.newest plug) elt [] = style.newest plug := by
    rw [textHandler_newest _ _ helt, fillPlugin_nil _ htext]
  rw [foldl_writeElement _ _ hne (.inr hnil), textHandler_newest _ _ helt]

theorem foldl_int (helt : isPluginField elt = true) (value : Int32) :
    (writeInt elt value).foldl step ⟨elements, style.newest plug⟩ =
      ⟨elements, style.newest (fillPlugin plug elt (printInt value.toInt))⟩ := by
  have hne : elt ≠ .plugin := by
    rintro rfl
    cases helt
  rw [writeInt, foldl_writeElement _ _ hne (.inl (printInt_ne_nil _)), textHandler_newest _ _ helt]

variable (z : Zlib) (config : CompressXmpTags) (item : StyleItem)

def pluginOf : StylePluginData where
  num := item.num.getD 0
  module := item.module
  operation := item.operation.getD "(null)".toList
  opParams := dtExifXmpEncode z config item.opParams
  enabled := item.enabled
  blendopParams := dtExifXmpEncode z config item.blendopParams
  blendopVersion := item.blendopVersion
  multiPriority := item.multiPriority
  multiName := item.multiName.getD "(null)".toList

/-- One plugin element gives one plugin, whatever has been read before. -/
theorem foldl_writePlugin (hclosed : style.inPlugin = false) :
    (writePlugin z config item).foldl step ⟨elements, style⟩ =
      ⟨elements, { style with plugins := pluginOf z config item :: style.plugins }⟩ := by
  have hstart : step ⟨elements, style⟩ (.startElement .plugin) =
      ⟨.plugin :: elements, style.newest {}⟩ := rfl
  rw [writePlugin, foldl_cons, hstart]
  simp only [foldl_append, writeText]
  rw [foldl_int _ _ _ rfl, foldl_int _ _ _ rfl, foldl_text _ _ _ rfl rfl, foldl_text _ _ _ rfl rfl,
    foldl_int _ _ _ rfl, foldl_text _ _ _ rfl rfl, foldl_int _ _ _ rfl, foldl_int _ _ _ rfl,
    foldl_text _ _ _ rfl rfl]
  simp only [fillPlugin, atoi_printInt]
  show (⟨elements, { style with inPlugin := false, plugins := _ }⟩ : StyleParser) = _
  rw [← hclosed]
  rfl

end Plugin

section Document

variable (z : Zlib) (config : CompressXmpTags) (elements : List StyleElement)

/-- The plugins are put in front, so the last one of the file comes first. -/
theorem foldl_plugins (items : List StyleItem) (style : StyleData)
    (hclosed : style.inPlugin = false) :
    (items.flatMap (writePlugin z config)).foldl step ⟨elements, style⟩ =
      ⟨elements,
        { style with plugins := (items.map (pluginOf z config)).reverse ++ style.plugins }⟩ := by
  induction items generalizing style with
  | nil => rfl
  | cons item items ih =>
    rw [flatMap_cons, foldl_append, foldl_writePlugin _ _ _ _ _ hclosed,
      ih { style with plugins := pluginOf z config item :: style.plugins } hclosed, map_cons,
      reverse_cons, append_assoc]
    rfl

variable {list : List IopOrderEntry}

theorem deserialize_serialize_of_read {buf : Text}
    (h : dtIopprDeserializeTextIopOrderList buf = some list) :
    dtIopprDeserializeTextIopOrderList (dtIopprSerializeTextIopOrderList list) = some list := by
  have horder := OrderList.of_deserialize h
  have hread := deserialize_serialize horder.plain (by
    rw [horder.numbered]
    exact horder.sane)
  rw [horder.numbered] at hread
  exact hread

theorem StyleTables.moduleOrderList_reread (h : db.moduleOrderList name = some list) :
    dtIopprDeserializeTextIopOrderList (dtIopprSerializeTextIopOrderList list) = some list := by
  obtain ⟨buf, -, hbuf⟩ := Option.bind_eq_some_iff.mp h
  exact deserialize_serialize_of_read hbuf

theorem foldl_iopList {style : StyleData} (hnone : style.iopList = none) :
    ((db.moduleOrderList name).elim [] fun iopList =>
      writeElement .iopList (dtIopprSerializeTextIopOrderList iopList)).foldl step
        ⟨elements, style⟩ =
      ⟨elements, { style with iopList := db.moduleOrderList name }⟩ := by
  cases hlist : db.moduleOrderList name with
  | none =>
    show (⟨elements, style⟩ : StyleParser) = ⟨elements, { style with iopList := none }⟩
    rw [← hnone]
  | some list =>
    have hread := moduleOrderList_reread hlist
    have htext : dtIopprSerializeTextIopOrderList list ≠ [] := by
      intro hnil
      rw [hnil] at hread
      cases hread
    show (writeElement .iopList _).foldl _ _ = _
    rw [foldl_writeElement _ _ (by decide) (.inl htext)]
    show (⟨elements, { style with iopList := _ }⟩ : StyleParser) = _
    rw [hread]

def parsedStyle (db : StyleTables) (name : Text) : StyleData where
  name := name
  description := (db.dtStylesGetDescription name).getD "(null)".toList
  iopList := db.moduleOrderList name
  inPlugin := false
  plugins := ((db.itemsOf (db.dtStylesGetIdByName name)).map (pluginOf z config)).reverse

theorem parse_writeStyle (db : StyleTables) (name : Text) :
    ((writeStyle z config db name).foldl step ⟨[], {}⟩).style = parsedStyle z config db name := by
  have hstart : [XmlEvent.startElement .darktableStyle, .startElement .info].foldl step
      ⟨[], {}⟩ = ⟨[.info, .darktableStyle], {}⟩ := rfl
  have hname : (writeElement .name name).foldl step
      ⟨[.info, .darktableStyle], {}⟩ = ⟨[.info, .darktableStyle], { name := name }⟩ :=
    foldl_writeElement _ _ (by decide) (.inr rfl)
  have hdescription : ∀ text, (writeElement .description text).foldl step
      ⟨[.info, .darktableStyle], { name := name }⟩ =
        ⟨[.info, .darktableStyle], { name := name, description := text }⟩ := fun _ =>
    foldl_writeElement _ _ (by decide) (.inr rfl)
  have hmiddle : ∀ style, [XmlEvent.endElement, .startElement .style].foldl step
      ⟨[.info, .darktableStyle], style⟩ = ⟨[.style, .darktableStyle], style⟩ := fun _ => rfl
  simp only [writeStyle, foldl_append, writeText]
  rw [hstart, hname, hdescription, foldl_iopList _ rfl, hmiddle, foldl_plugins _ _ _ _ _ rfl,
    append_nil]
  rfl

end Document

/-! ## A style that is saved and imported -/

def ReadBack (z : Zlib) (config : CompressXmpTags) (blob : Blob) : Prop :=
  dtExifXmpDecode z (dtExifXmpEncode z config blob) = some blob

variable {config : CompressXmpTags}

namespace StyleItem

-- The item as it comes back: `NULL` is a number or a text there.
def imported (item : StyleItem) : StyleItem :=
  { item with
    num := some (item.num.getD 0)
    operation := some (item.operation.getD "(null)".toList)
    multiName := some (item.multiName.getD "(null)".toList) }

/-- No `NULL` that the file cannot tell from a value. -/
def Complete (item : StyleItem) : Prop :=
  item.num.isSome ∧ item.operation.isSome ∧ item.multiName.isSome

instance (item : StyleItem) : Decidable item.Complete := inferInstanceAs (Decidable (_ ∧ _ ∧ _))

theorem complete_imported (item : StyleItem) : item.imported.Complete := ⟨rfl, rfl, rfl⟩

theorem Complete.imported_eq {item : StyleItem} (h : item.Complete) : item.imported = item := by
  have hvalue {α : Type} : ∀ {o : Option α} (a : α), o.isSome → some (o.getD a) = o
    | some _, _, _ => rfl
  rw [imported, hvalue _ h.1, hvalue _ h.2.1, hvalue _ h.2.2]

end StyleItem

theorem stylePluginRow_pluginOf {z : Zlib} {item : StyleItem}
    (hparams : ReadBack z config item.opParams) (hblend : ReadBack z config item.blendopParams) :
    stylePluginRow z (pluginOf z config item) = item.imported := by
  rw [ReadBack] at hparams hblend
  simp [stylePluginRow, pluginOf, StyleItem.imported, hparams, hblend]

/-- Rows without such `NULL`s come back, and no others. -/
theorem map_imported_perm_iff {items : List StyleItem} :
    (items.map StyleItem.imported).Perm items ↔ ∀ item ∈ items, item.Complete := by
  constructor
  · intro hperm item hitem
    obtain ⟨item, -, rfl⟩ := mem_map.mp (hperm.mem_iff.mpr hitem)
    exact item.complete_imported
  · intro hcomplete
    rw [map_congr_left fun item hitem => (hcomplete item hitem).imported_eq, map_id']

/-- Two libraries have the same style under a name. The order of the items is left open. -/
structure SameStyle (db db' : StyleTables) (name : Text) : Prop where
  exists_eq : db'.dtStylesExists name = db.dtStylesExists name
  description : db'.dtStylesGetDescription name = db.dtStylesGetDescription name
  moduleOrder : db'.moduleOrderList name = db.moduleOrderList name
  items : (db'.itemsOf (db'.dtStylesGetIdByName name)).Perm
    (db.itemsOf (db.dtStylesGetIdByName name))

namespace StyleTables

variable {db : StyleTables} {style : StyleHeader}

theorem getDescription_of_mem (hstyle : style ∈ db.styles) :
    db.dtStylesGetDescription style.name = some style.description := by
  have hpos := db.id_pos style hstyle
  rw [dtStylesGetDescription, getIdByName_of_mem hstyle, if_pos (Int.ne_of_gt hpos),
    (find?_key_eq_some_iff db.ids_nodup).mpr ⟨hstyle, rfl⟩]
  rfl

theorem moduleOrderList_of_mem (hstyle : style ∈ db.styles) :
    db.moduleOrderList style.name = style.iopList.bind dtIopprDeserializeTextIopOrderList := by
  rw [moduleOrderList, (find?_key_eq_some_iff db.names_nodup).mpr ⟨hstyle, rfl⟩]
  rfl

theorem itemsOf_nextId (db : StyleTables) : db.itemsOf db.nextId = [] := by
  have hnone : (db.items.filter fun item => item.1 = db.nextId) = [] := by
    rw [filter_eq_nil_iff]
    intro item hitem hid
    exact db.nextId_not_mem (of_decide_eq_true hid ▸ db.items_known item hitem)
  rw [itemsOf, hnone]
  rfl

theorem itemsOf_insertItems (db : StyleTables) {styleid : Int} (rows : List StyleItem)
    (hid : styleid ∈ db.styles.map StyleHeader.id) :
    (db.insertItems styleid rows hid).itemsOf styleid = db.itemsOf styleid ++ rows := by
  have hrows : ((rows.map (styleid, ·)).filter fun item => item.1 = styleid) =
      rows.map (styleid, ·) := by
    rw [filter_eq_self]
    intro item hitem
    obtain ⟨row, -, rfl⟩ := mem_map.mp hitem
    exact decide_eq_true rfl
  show ((db.items ++ rows.map (styleid, ·)).filter _).map Prod.snd = _
  rw [filter_append, hrows, map_append, map_map]
  show _ ++ rows.map id = _
  rw [map_id]
  rfl

end StyleTables

/-- What `dt_style_save` leaves if there is no style of the name yet. -/
theorem dtStyleSave_new (z : Zlib) {db : StyleTables} {style : StyleData}
    (hnew : db.dtStylesGetIdByName style.name = 0) :
    ∃ header ∈ (dtStyleSave z db style).styles, header.name = style.name ∧
      header.description = style.description ∧
      header.iopList = style.iopList.map dtIopprSerializeTextIopOrderList ∧
      (dtStyleSave z db style).itemsOf header.id = style.plugins.map (stylePluginRow z) := by
  set header : StyleHeader :=
    ⟨db.nextId, style.name, style.description, style.iopList.map dtIopprSerializeTextIopOrderList⟩
  -- the new row, before the items are there
  obtain ⟨created, hcreated, hmem, hitems⟩ : ∃ created : StyleTables,
      db.dtStylesCreateStyleHeader style.name style.description style.iopList = some created ∧
        header ∈ created.styles ∧ created.items = db.items := by
    rw [dtStylesCreateStyleHeader, dif_pos hnew]
    exact ⟨_, rfl, mem_append_right _ (mem_singleton_self header), rfl⟩
  have hid : created.dtStylesGetIdByName style.name = header.id := getIdByName_of_mem hmem
  have hne : created.dtStylesGetIdByName style.name ≠ 0 := by
    rw [hid]
    exact Int.ne_of_gt db.nextId_pos
  have hsave : dtStyleSave z db style =
      created.insertItems (created.dtStylesGetIdByName style.name)
        (style.plugins.map (stylePluginRow z)) (getIdByName_mem hne) := by
    rw [dtStyleSave, hcreated]
    exact dif_pos hne
  have hnone : created.itemsOf header.id = [] := by
    rw [itemsOf, hitems]
    exact db.itemsOf_nextId
  rw [hsave]
  refine ⟨header, hmem, rfl, rfl, rfl, ?_⟩
  rw [← hid, itemsOf_insertItems, hid, hnone, nil_append]

theorem content_dtStylesSaveToFile (z : Zlib) (config : CompressXmpTags) {files : StyleFiles}
    {filedir : Path} {overwrite : Bool} (hexists : db.dtStylesExists name = true)
    (hwritable : files.writable (stylePath filedir name) = true)
    (hfile : files.content (stylePath filedir name) = none ∨ overwrite = true) :
    (dtStylesSaveToFile z config db files name filedir overwrite).content
      (stylePath filedir name) = some (writeStyle z config db name) := by
  rw [dtStylesSaveToFile]
  dsimp only
  rw [hexists, hwritable]
  by_cases hold : (files.content (stylePath filedir name)).isSome = true
  · have hoverwrite : overwrite = true := by
      refine hfile.resolve_left fun hnone => ?_
      rw [hnone] at hold
      cases hold
    rw [if_pos hold, hoverwrite]
    exact Function.update_self ..
  · rw [if_neg hold]
    exact Function.update_self ..

theorem sameStyle_dtStyleSave_iff {z : Zlib} {db' : StyleTables}
    (hexists : db.dtStylesGetIdByName name ≠ 0) (hnew : db'.dtStylesGetIdByName name = 0)
    (hblobs : ∀ item ∈ db.itemsOf (db.dtStylesGetIdByName name),
      ReadBack z config item.opParams ∧ ReadBack z config item.blendopParams) :
    SameStyle db (dtStyleSave z db' (parsedStyle z config db name)) name ↔
      ∀ item ∈ db.itemsOf (db.dtStylesGetIdByName name), item.Complete := by
  obtain ⟨header, hmem, hname, hdescription, hiopList, hitems⟩ :=
    @dtStyleSave_new z db' (parsedStyle z config db name) hnew
  have hname : header.name = name := hname
  set saved := dtStyleSave z db' (parsedStyle z config db name)
  have hid : saved.dtStylesGetIdByName name = header.id := hname ▸ getIdByName_of_mem hmem
  obtain ⟨style, hstyle, hstyleName⟩ := exists_style hexists
  -- the rows go in with the last one first
  have hrows : (parsedStyle z config db name).plugins.map (stylePluginRow z) =
      ((db.itemsOf (db.dtStylesGetIdByName name)).map StyleItem.imported).reverse := by
    rw [parsedStyle, map_reverse, map_map]
    exact congrArg reverse (map_congr_left fun item hitem =>
      stylePluginRow_pluginOf (hblobs item hitem).1 (hblobs item hitem).2)
  rw [← map_imported_perm_iff]
  refine ⟨fun hsame => ?_, fun hperm => ⟨?_, ?_, ?_, ?_⟩⟩
  · have hread := hsame.items
    rw [hid, hitems, hrows] at hread
    exact (reverse_perm _).symm.trans hread
  · have hpos := Int.ne_of_gt (saved.id_pos header hmem)
    rw [dtStylesExists, dtStylesExists, hid, bne_iff_ne.mpr hexists]
    exact bne_iff_ne.mpr hpos
  · have hold : db.dtStylesGetDescription name = some style.description :=
      hstyleName ▸ getDescription_of_mem hstyle
    have hread : saved.dtStylesGetDescription name = some header.description :=
      hname ▸ getDescription_of_mem hmem
    rw [hread, hdescription, parsedStyle, hold, Option.getD_some]
  · have hread : saved.moduleOrderList name = header.iopList.bind _ :=
      hname ▸ moduleOrderList_of_mem hmem
    rw [hread, hiopList]
    show ((db.moduleOrderList name).map _).bind _ = _
    cases hlist : db.moduleOrderList name with
    | none => rfl
    | some list => exact moduleOrderList_reread hlist
  · rw [hid, hitems, hrows]
    exact (reverse_perm _).trans hperm

def noStyles : StyleTables where
  styles := []
  items := []
  id_pos _ h := absurd h not_mem_nil
  ids_nodup := nodup_nil
  names_nodup := nodup_nil
  items_known _ h := absurd h not_mem_nil

-- One style with an order and two instances of a module, one of them without name and blend params.
def warmTables : StyleTables :=
  dtStyleSave storedZlib noStyles
    { name := "warm/soft".toList
      description := "for skin".toList
      iopList := some v30OrderList
      plugins :=
        [{ num := 0, module := 5, operation := "exposure".toList, opParams := "07ff".toList,
           enabled := 1, blendopParams := "00".toList, blendopVersion := 9, multiPriority := 1,
           multiName := "sky".toList },
          { num := 1, module := 5, operation := "exposure".toList, opParams := "0000".toList }] }

-- The item has been updated from a row of the history that is not there.
def staleTables : StyleTables where
  styles := [⟨1, "warm".toList, [], none⟩]
  items := [(1, ⟨some 0, 0, some "exposure".toList, [], 0, [], 0, 0, none⟩)]
  id_pos := by decide
  ids_nodup := by decide
  names_nodup := by decide
  items_known := by decide

end DTLite
