import DTLite.Common.IopOrderTable
import DTLite.Common.Versions
import DTLite.Common.XmpBlob

/-!
# Style files

`dt_styles_save_to_file` writes a style element by element, and `dt_styles_import_from_file` runs a
parser over the file that fills the items as their elements come along.
-/

namespace DTLite

open Reasoning List

/-! ## The tables -/

/-- A row of `data.style_items` without its style. Where `NULL` is not read as 0 or as no bytes it
is `none`: `_dt_style_update_from_image` writes it for a row of the history that is not there. -/
structure StyleItem where
  num : Option Int32
  module : Int32
  operation : Option Text
  opParams : Blob
  enabled : Int32
  blendopParams : Blob
  blendopVersion : Int32
  multiPriority : Int32
  multiName : Option Text
deriving DecidableEq, Repr

/-- A row of `data.styles`. -/
structure StyleHeader where
  id : Int
  name : Text
  description : Text
  iopList : Option Text
deriving DecidableEq, Repr

/-- `data.styles` and `data.style_items`. An item is stored with the id of its style. -/
structure StyleTables where
  styles : List StyleHeader
  items : List (Int × StyleItem)
  id_pos : ∀ style ∈ styles, 0 < style.id
  ids_nodup : (styles.map StyleHeader.id).Nodup
  names_nodup : (styles.map StyleHeader.name).Nodup
  items_known : ∀ item ∈ items, item.1 ∈ styles.map StyleHeader.id

namespace StyleTables

variable (db : StyleTables)

-- 0 if there is no style of the name.
def dtStylesGetIdByName (name : Text) : Int :=
  (((db.styles.filter fun style => style.name = name).map StyleHeader.id).max?).getD 0

def dtStylesExists (name : Text) : Bool := db.dtStylesGetIdByName name != 0

-- `none` for `NULL`.
def dtStylesGetDescription (name : Text) : Option Text :=
  if db.dtStylesGetIdByName name ≠ 0 then
    (db.styles.find? fun style ↦ style.id = db.dtStylesGetIdByName name).map StyleHeader.description
  else none

-- `dt_styles_module_order_list`.
def moduleOrderList (name : Text) : Option (List IopOrderEntry) :=
  ((db.styles.find? fun style => style.name = name).bind StyleHeader.iopList).bind
    dtIopprDeserializeTextIopOrderList

-- `SELECT … FROM data.style_items WHERE styleid = ?`.
def itemsOf (styleid : Int) : List StyleItem :=
  (db.items.filter fun item => item.1 = styleid).map Prod.snd

-- `SELECT COALESCE(MAX(id),0)+1 FROM data.styles`.
def nextId (db : StyleTables) : Int := ((db.styles.map StyleHeader.id).max?).getD 0 + 1

variable {db : StyleTables} {name : Text} {style : StyleHeader}

theorem getIdByName_of_mem (hstyle : style ∈ db.styles) :
    db.dtStylesGetIdByName style.name = style.id := by
  rw [dtStylesGetIdByName, rowsOf_key db.names_nodup hstyle]
  rfl

theorem getIdByName_eq_zero_iff :
    db.dtStylesGetIdByName name = 0 ↔ name ∉ db.styles.map StyleHeader.name := by
  constructor
  · intro hzero hmem
    obtain ⟨style, hstyle, rfl⟩ := mem_map.mp hmem
    rw [getIdByName_of_mem hstyle] at hzero
    exact absurd hzero (Int.ne_of_gt (db.id_pos style hstyle))
  · intro hnot
    have hnil : (db.styles.filter fun style => style.name = name) = [] := by
      rw [filter_eq_nil_iff]
      intro style hstyle hname
      exact hnot (mem_map.mpr ⟨style, hstyle, of_decide_eq_true hname⟩)
    rw [dtStylesGetIdByName, hnil]
    rfl

theorem exists_style (h : db.dtStylesGetIdByName name ≠ 0) :
    ∃ style ∈ db.styles, style.name = name := by
  have hmem := not_not.mp (mt getIdByName_eq_zero_iff.mpr h)
  obtain ⟨style, hstyle, hname⟩ := mem_map.mp hmem
  exact ⟨style, hstyle, hname⟩

theorem lt_nextId (hstyle : style ∈ db.styles) : style.id < db.nextId := by
  rw [nextId]
  cases hmax : (db.styles.map StyleHeader.id).max? with
  | none =>
    rw [max?_eq_none_iff, map_eq_nil_iff] at hmax
    rw [hmax] at hstyle
    cases hstyle
  | some id =>
    have hle := (max?_eq_some_iff.mp hmax).2 style.id (mem_map_of_mem hstyle)
    rw [Option.getD_some]
    omega

theorem nextId_pos (db : StyleTables) : 0 < db.nextId := by
  cases hstyles : db.styles with
  | nil =>
    rw [nextId, hstyles]
    decide
  | cons style styles =>
    have hstyle : style ∈ db.styles := by
      rw [hstyles]
      exact mem_cons_self
    exact lt_trans (db.id_pos style hstyle) (lt_nextId hstyle)

theorem nextId_not_mem (db : StyleTables) : db.nextId ∉ db.styles.map StyleHeader.id := by
  intro hmem
  obtain ⟨style, hstyle, hid⟩ := mem_map.mp hmem
  exact absurd hid (Int.ne_of_lt (lt_nextId hstyle))

section NewStyle

variable (db) {new : StyleHeader}

theorem id_pos_concat (hnew : 0 < new.id) : ∀ style ∈ db.styles ++ [new], 0 < style.id := by
  intro style hstyle
  rcases mem_append.mp hstyle with hold | hlast
  · exact db.id_pos style hold
  · rw [mem_singleton.mp hlast]
    exact hnew

theorem items_known_concat (new : StyleHeader) :
    ∀ item ∈ db.items, item.1 ∈ (db.styles ++ [new]).map StyleHeader.id := by
  intro item hitem
  rw [map_append]
  exact mem_append_left _ (db.items_known item hitem)

end NewStyle

/-- `none` for `FALSE`. -/
def dtStylesCreateStyleHeader (db : StyleTables) (name description : Text)
    (iopList : Option (List IopOrderEntry)) : Option StyleTables :=
  if hname : db.dtStylesGetIdByName name = 0 then
    some
      { styles := db.styles ++
          [⟨db.nextId, name, description, iopList.map dtIopprSerializeTextIopOrderList⟩]
        items := db.items
        id_pos := db.id_pos_concat db.nextId_pos
        ids_nodup := nodup_keys_concat db.ids_nodup db.nextId_not_mem
        names_nodup := nodup_keys_concat db.names_nodup (getIdByName_eq_zero_iff.mp hname)
        items_known := db.items_known_concat _ }
  else none

theorem getIdByName_mem (h : db.dtStylesGetIdByName name ≠ 0) :
    db.dtStylesGetIdByName name ∈ db.styles.map StyleHeader.id := by
  obtain ⟨style, hstyle, rfl⟩ := exists_style h
  rw [getIdByName_of_mem hstyle]
  exact mem_map_of_mem hstyle

theorem items_known_append {styleid : Int} (hid : styleid ∈ db.styles.map StyleHeader.id)
    (rows : List StyleItem) :
    ∀ item ∈ db.items ++ rows.map (styleid, ·), item.1 ∈ db.styles.map StyleHeader.id := by
  intro item hitem
  rcases mem_append.mp hitem with hold | hnew
  · exact db.items_known item hold
  · obtain ⟨row, -, rfl⟩ := mem_map.mp hnew
    exact hid

-- `INSERT INTO data.style_items`, once for each row.
def insertItems (db : StyleTables) (styleid : Int) (rows : List StyleItem)
    (hid : styleid ∈ db.styles.map StyleHeader.id) : StyleTables :=
  { db with
    items := db.items ++ rows.map (styleid, ·)
    items_known := items_known_append hid rows }

end StyleTables

inductive StyleElement where
  | darktableStyle
  | info
  | name
  | description
  | iopList
  | style
  | plugin
  | num
  | module
  | operation
  | opParams
  | enabled
  | blendopParams
  | blendopVersion
  | multiPriority
  | multiName
deriving DecidableEq, Repr

/-- What an XML file amounts to for its parser. -/
inductive XmlEvent where
  | startElement (element : StyleElement)
  | text (text : Text)
  | endElement
deriving DecidableEq, Repr

-- `xmlTextWriterWriteFormatElement`. An element without a text has no text node.
def writeElement (element : StyleElement) (text : Text) : List XmlEvent :=
  .startElement element :: (if text = [] then [] else [.text text]) ++ [.endElement]

-- With the format `%s`, for which `NULL` is `(null)`.
def writeText (element : StyleElement) (text : Option Text) : List XmlEvent :=
  writeElement element (text.getD "(null)".toList)

-- `xmlTextWriterWriteFormatElement` with the format `%d`.
def writeInt (element : StyleElement) (value : Int32) : List XmlEvent :=
  writeElement element (printInt value.toInt)

section Writing

variable (z : Zlib) (config : CompressXmpTags)

-- One row of the query; `dt_style_encode` makes texts of the blobs.
def writePlugin (item : StyleItem) : List XmlEvent :=
  .startElement .plugin ::
    (writeInt .num (item.num.getD 0) ++
    writeInt .module item.module ++
    writeText .operation item.operation ++
    writeElement .opParams (dtExifXmpEncode z config item.opParams) ++
    writeInt .enabled item.enabled ++
    writeElement .blendopParams (dtExifXmpEncode z config item.blendopParams) ++
    writeInt .blendopVersion item.blendopVersion ++
    writeInt .multiPriority item.multiPriority ++
    writeText .multiName item.multiName ++
    [.endElement])

-- `xmlTextWriterEndDocument` closes the open elements.
def writeStyle (db : StyleTables) (styleName : Text) : List XmlEvent :=
  [.startElement .darktableStyle, .startElement .info] ++
    writeElement .name styleName ++
    writeText .description (db.dtStylesGetDescription styleName) ++
    ((db.moduleOrderList styleName).elim [] fun iopList =>
      writeElement .iopList (dtIopprSerializeTextIopOrderList iopList)) ++
    [.endElement, .startElement .style] ++
    (db.itemsOf (db.dtStylesGetIdByName styleName)).flatMap (writePlugin z config) ++
    [.endElement, .endElement]

/-- The files, and where one can be written and deleted. -/
structure StyleFiles where
  content : Path → Option (List XmlEvent)
  writable : Path → Bool

-- The file of a style, in a buffer of 520 bytes.
def stylePath (filedir : Path) (styleName : Text) : Path :=
  (filedir ++ ['/'] ++
    styleName.map (fun c => if c ∈ "/<>:\"\\|*?[]".toList then '_' else c) ++
    ".dtstyle".toList).take 519

def dtStylesSaveToFile (db : StyleTables) (files : StyleFiles) (styleName : Text) (filedir : Path)
    (overwrite : Bool) : StyleFiles :=
  let stylename := stylePath filedir styleName
  let write (files : StyleFiles) : StyleFiles :=
    if db.dtStylesExists styleName && files.writable stylename then
      { files with
        content := Function.update files.content stylename
          (some (writeStyle z config db styleName)) }
    else files
  if (files.content stylename).isSome then
    -- the old file is deleted first
    if overwrite && files.writable stylename then
      write { files with content := Function.update files.content stylename none }
    else files
  else write files

end Writing

structure StylePluginData where
  num : Int32 := 0
  module : Int32 := 0
  operation : Text := []
  opParams : Text := []
  enabled : Int32 := 0
  blendopParams : Text := []
  blendopVersion : Int32 := 0
  multiPriority : Int32 := 0
  multiName : Text := []
deriving DecidableEq, Repr

/-- With its `info`. -/
structure StyleData where
  name : Text := []
  description : Text := []
  iopList : Option (List IopOrderEntry) := none
  inPlugin : Bool := false
  plugins : List StylePluginData := []

variable (style : StyleData)

def dtStylesStartTagHandler (elt : StyleElement) : StyleData :=
  if elt = .plugin then { style with inPlugin := true, plugins := {} :: style.plugins } else style

def dtStylesEndTagHandler (elt : StyleElement) : StyleData :=
  if elt = .plugin then { style with inPlugin := false } else style

-- The part of the text handler that fills the newest plugin.
def fillPlugin (plug : StylePluginData) (elt : StyleElement) (text : Text) : StylePluginData :=
  match elt with
  | .operation => { plug with operation := plug.operation ++ text }
  | .opParams => { plug with opParams := plug.opParams ++ text }
  | .blendopParams => { plug with blendopParams := plug.blendopParams ++ text }
  | .blendopVersion => { plug with blendopVersion := atoi text }
  | .multiPriority => { plug with multiPriority := atoi text }
  | .multiName => { plug with multiName := plug.multiName ++ text }
  | .num => { plug with num := atoi text }
  | .module => { plug with module := atoi text }
  | .enabled => { plug with enabled := atoi text }
  | _ => plug

def dtStylesStyleTextHandler (elt : StyleElement) (text : Text) : StyleData :=
  match elt with
  | .name => { style with name := style.name ++ text }
  | .description => { style with description := style.description ++ text }
  | .iopList => { style with iopList := dtIopprDeserializeTextIopOrderList text }
  | elt =>
      if style.inPlugin then
        { style with plugins := style.plugins.modifyHead (fillPlugin · elt text) }
      else style

/-- The parser between two events: the open elements, the innermost first, and what the handlers
have collected. -/
structure StyleParser where
  elements : List StyleElement
  style : StyleData

-- `g_markup_parse_context_get_element` is the innermost open element, also when it is closed.
def StyleParser.step (s : StyleParser) : XmlEvent → StyleParser
  | .startElement elt => ⟨elt :: s.elements, dtStylesStartTagHandler s.style elt⟩
  | .text text =>
      match s.elements with
      | elt :: _ => { s with style := dtStylesStyleTextHandler s.style elt text }
      | [] => s
  | .endElement =>
      match s.elements with
      | elt :: elements => ⟨elements, dtStylesEndTagHandler s.style elt⟩
      | [] => s

-- `dt_style_plugin_save`, the row that it inserts.
def stylePluginRow (z : Zlib) (plugin : StylePluginData) : StyleItem where
  num := some plugin.num
  module := plugin.module
  operation := some plugin.operation
  opParams := (dtExifXmpDecode z plugin.opParams).getD []
  enabled := plugin.enabled
  blendopParams := (dtExifXmpDecode z plugin.blendopParams).getD []
  blendopVersion := plugin.blendopVersion
  multiPriority := plugin.multiPriority
  multiName := some plugin.multiName

def dtStyleSave (z : Zlib) (db : StyleTables) (style : StyleData) : StyleTables :=
  match db.dtStylesCreateStyleHeader style.name style.description style.iopList with
  | none => db
  | some db =>
      if hid : db.dtStylesGetIdByName style.name ≠ 0 then
        db.insertItems (db.dtStylesGetIdByName style.name) (style.plugins.map (stylePluginRow z))
          (StyleTables.getIdByName_mem hid)
      else db

def dtStylesImportFromFile (z : Zlib) (files : StyleFiles) (db : StyleTables) (stylePath : Path) :
    StyleTables :=
  match files.content stylePath with
  | none => db
  | some events => dtStyleSave z db (events.foldl StyleParser.step ⟨[], {}⟩).style

end DTLite
