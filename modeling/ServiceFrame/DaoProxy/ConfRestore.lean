import ServiceFrame.DaoProxy.PxGlobalConf
import ServiceFrame.Foundation.Run

/-! # Loading what was saved

The document that a configuration is saved as is read as the same maps, and so passes the
check that they passed.
-/

namespace ServiceFrame

open Foundation

namespace TiXmlElement

mutual

/-- An element as it is parsed from what is printed of it: an empty text leaves nothing. -/
def readBack : TiXmlElement → TiXmlElement
  | ⟨value, getText, children⟩ => ⟨value, getText.filter (· ≠ []), readBackAll children⟩

def readBackAll : List TiXmlElement → List TiXmlElement
  | [] => []
  | child :: rest => readBack child :: readBackAll rest

end

theorem readBackAll_eq (children : List TiXmlElement) :
    readBackAll children = children.map readBack := by
  induction children with
  | nil => rfl
  | cons child rest ih => rw [readBackAll, ih, List.map_cons]

@[simp] theorem value_readBack (elm : TiXmlElement) : (readBack elm).value = elm.value := by
  cases elm
  rfl

theorem children_readBack (elm : TiXmlElement) :
    (readBack elm).children = elm.children.map readBack := by
  cases elm
  exact readBackAll_eq _

theorem firstChildElement_readBack (elm : TiXmlElement) (name : String) :
    (readBack elm).firstChildElement name = (elm.firstChildElement name).map readBack := by
  rw [firstChildElement, children_readBack, List.find?_map, firstChildElement]
  congr 2
  funext child
  simp

theorem siblings_readBack (elm : TiXmlElement) (name : String) :
    (readBack elm).siblings name = (elm.siblings name).map readBack := by
  rw [siblings, children_readBack, List.filter_map, siblings]
  congr 2
  funext child
  simp

end TiXmlElement

namespace PxGlobalConf

open TiXmlElement

variable {lexical : JLexical}

/-! ## A document that was printed and parsed -/

/-- No text and an empty one are the same to `gl_getStr`. -/
theorem glGetStr_readBack (elm : TiXmlElement) : glGetStr (readBack elm) = glGetStr elm := by
  obtain ⟨value, getText, children⟩ := elm
  cases getText with
  | none => rfl
  | some str =>
      cases str with
      | nil => rfl
      | cons byte rest => rfl

theorem childStr_readBack (elm : TiXmlElement) (name : String) :
    childStr (readBack elm) name = childStr elm name := by
  rw [childStr, firstChildElement_readBack, childStr, Option.map_map]
  congr 1
  funext child
  exact glGetStr_readBack child

theorem readSection_readBack {Map : Type} {read : Map → TiXmlElement → Option Map}
    (hread : ∀ map elm, read map (readBack elm) = read map elm) (conf : TiXmlElement)
    (name item : String) (none : Map) :
    readSection (readBack conf) name item read none = readSection conf name item read none := by
  rw [readSection, firstChildElement_readBack, Option.bind_map, readSection]
  congr 1
  funext section_
  rw [Function.comp_apply, siblings_readBack, List.foldlM_map]
  simp only [hread]

theorem readDocument_readBack (doc : TiXmlElement) :
    readDocument lexical (readBack doc) = readDocument lexical doc := by
  have haddress : ∀ list elm,
      readAddress lexical list (readBack elm) = readAddress lexical list elm := by
    intro list elm
    simp only [readAddress, childStr_readBack]
  have hlicence : ∀ rules elm, readLicence rules (readBack elm) = readLicence rules elm := by
    intro rules elm
    simp only [readLicence, glGetStr_readBack]
  have hthrottle : ∀ rules elm,
      readThrottle lexical rules (readBack elm) = readThrottle lexical rules elm := by
    intro rules elm
    simp only [readThrottle, childStr_readBack]
  have hroute : ∀ rules elm, readRoute rules (readBack elm) = readRoute rules elm := by
    intro rules elm
    simp only [readRoute, childStr_readBack]
  have hnode : ∀ ring elm, readNode lexical ring (readBack elm) = readNode lexical ring elm := by
    intro ring elm
    simp only [readNode, glGetStr_readBack]
  unfold readDocument
  rw [firstChildElement_readBack]
  cases doc.firstChildElement "conf" with
  | none => rfl
  | some conf =>
      simp only [Option.map_some, Option.bind_eq_bind, Option.bind_some,
        readSection_readBack haddress, readSection_readBack hlicence,
        readSection_readBack hthrottle, readSection_readBack hroute, readSection_readBack hnode,
        firstChildElement_readBack, Option.bind_map]
      rfl

/-! ## What is read can be written -/

section Read

variable {Key Value : Type} [LinearOrder Key]

/-- What each item that is read brings holds of all entries of a section. -/
theorem readSection_all {good : Key × Value → Prop}
    {read : OrderedMap Key Value → TiXmlElement → Option (OrderedMap Key Value)}
    (hread : ∀ map elm next, read map elm = some next →
      ∃ key value, next = map.set key value ∧ good (key, value))
    {conf : TiXmlElement} {name item : String} {map : OrderedMap Key Value}
    (hmap : readSection conf name item read .empty = some map) :
    ∀ entry ∈ map.entries, good entry := by
  obtain ⟨section_, -, hloop⟩ := Option.bind_eq_some_iff.mp hmap
  refine foldlM_invariant (fun map : OrderedMap Key Value => ∀ entry ∈ map.entries, good entry)
    ?_ (fun _ hmem => absurd hmem List.not_mem_nil) hloop
  intro past elm next hpast hnext entry hentry
  obtain ⟨key, value, rfl, hgood⟩ := hread past elm next hnext
  rcases mem_setEntry hentry with rfl | hentry
  · exact hgood
  · exact hpast entry hentry

end Read

/-- A name without `\0`, and addresses that can be told apart. -/
def WritableAddress (entry : Text × PrcAdd) : Prop :=
  0 ∉ entry.1 ∧ ∀ ipport ∈ entry.2.ipports, Separable ipport

/-- Maps that can be written and read again. -/
structure Writable (maps : Maps) : Prop where
  dao : ∀ entry ∈ maps.daoList.entries, WritableAddress entry
  proxy : ∀ entry ∈ maps.proxyList.entries, WritableAddress entry
  licence : ∀ entry ∈ maps.licenceRule.entries, entry.2 = 1

theorem zero_notMem_childStr {elm : TiXmlElement} {name : String} {str : Text}
    (hstr : childStr elm name = some str) : 0 ∉ str := by
  obtain ⟨child, -, rfl⟩ := Option.map_eq_some_iff.mp hstr
  exact zero_notMem_cstr _

theorem readAddress_writable {list next : OrderedMap Text PrcAdd} {elm : TiXmlElement}
    (hread : readAddress lexical list elm = some next) :
    ∃ key value, next = list.set key value ∧ WritableAddress (key, value) := by
  obtain ⟨id, hid, hread⟩ := Option.bind_eq_some_iff.mp hread
  obtain ⟨ipports, hipports, hread⟩ := Option.bind_eq_some_iff.mp hread
  obtain ⟨groupid, -, hread⟩ := Option.bind_eq_some_iff.mp hread
  cases hread
  exact ⟨_, _, rfl, zero_notMem_childStr hid,
    fun ipport hmem => separable_of_mem (zero_notMem_childStr hipports) hmem⟩

theorem readLicence_one {rules next : OrderedMap LocateType Int32} {elm : TiXmlElement}
    (hread : readLicence rules elm = some next) :
    ∃ key value, next = rules.set key value ∧ (key, value).2 = 1 := by
  cases hread
  exact ⟨_, _, rfl, rfl⟩

theorem readDocument_writable {doc : TiXmlElement} {maps : Maps}
    (hread : readDocument lexical doc = some maps) : Writable maps := by
  obtain ⟨conf, -, hread⟩ := Option.bind_eq_some_iff.mp hread
  obtain ⟨okcheck, -, hread⟩ := Option.bind_eq_some_iff.mp hread
  obtain ⟨daoList, hdao, hread⟩ := Option.bind_eq_some_iff.mp hread
  obtain ⟨proxyList, hproxy, hread⟩ := Option.bind_eq_some_iff.mp hread
  obtain ⟨licenceRule, hlicence, hread⟩ := Option.bind_eq_some_iff.mp hread
  obtain ⟨throttleRule, -, hread⟩ := Option.bind_eq_some_iff.mp hread
  obtain ⟨routestrategyRule, -, hread⟩ := Option.bind_eq_some_iff.mp hread
  obtain ⟨hashringGroup2weight, -, hread⟩ := Option.bind_eq_some_iff.mp hread
  cases hread
  exact {
    dao := readSection_all (fun _ _ _ => readAddress_writable) hdao
    proxy := readSection_all (fun _ _ _ => readAddress_writable) hproxy
    licence := readSection_all (fun _ _ _ => readLicence_one) hlicence }

/-! ## What is written is read -/

@[simp] theorem glGetStr_textElement (value : String) {str : Text} (hstr : 0 ∉ str) :
    glGetStr (textElement value str) = str := by
  rw [glGetStr, textElement, Option.getD_some, cstr_of_notMem (zero_notMem_cstr _),
    cstr_of_notMem hstr]

theorem zero_notMem_printInt (value : Int32) : 0 ∉ printInt value :=
  notMem_printInt value rfl (by decide)

theorem readAddress_saveAddress {entry : Text × PrcAdd} (hsome : entry.2.ipports ≠ [])
    (hentry : WritableAddress entry) (list : OrderedMap Text PrcAdd) (item : String) :
    readAddress lexical list (saveAddress item entry) = some (list.set entry.1 entry.2) := by
  obtain ⟨hid, hsep⟩ := hentry
  have hstr : childStr (saveAddress item entry) "id" = some entry.1 :=
    congrArg some (glGetStr_textElement "id" hid)
  have hipports : childStr (saveAddress item entry) "ipports" =
      some (convertIpport2str entry.2.ipports) :=
    congrArg some (glGetStr_textElement "ipports" (zero_notMem_convertIpport2str hsep))
  have hgroupid : childStr (saveAddress item entry) "groupid" =
      some (printInt entry.2.groupid) :=
    congrArg some (glGetStr_textElement "groupid" (zero_notMem_printInt _))
  rw [readAddress, hstr, hipports, hgroupid]
  simp only [Option.bind_eq_bind, Option.bind_some, lexical.cast_printInt,
    convertStr2ipport_convertIpport2str hsome hsep]
  rfl

theorem readLicence_saveLicence {rule : LocateType × Int32} (hrule : rule.2 = 1)
    (rules : OrderedMap LocateType Int32) :
    readLicence rules (saveLicence rule) = some (rules.set rule.1 rule.2) := by
  rw [readLicence, saveLicence, glGetStr_textElement _ (zero_notMem_locParseMapSS2String _),
    locParseString2MapSS_locParseMapSS2String, hrule]

theorem childStr_k (rule : LocateType) (v : TiXmlElement) :
    childStr (element "rule" [textElement "k" (locParseMapSS2String rule), v]) "k" =
      some (locParseMapSS2String rule) :=
  congrArg some (glGetStr_textElement "k" (zero_notMem_locParseMapSS2String rule))

theorem childStr_v {str : Text} (hstr : 0 ∉ str) (k : Text) :
    childStr (element "rule" [textElement "k" k, textElement "v" str]) "v" = some str :=
  congrArg some (glGetStr_textElement "v" hstr)

theorem readThrottle_saveThrottle (rule : LocateType × Int32)
    (rules : OrderedMap LocateType Int32) :
    readThrottle lexical rules (saveThrottle rule) = some (rules.set rule.1 rule.2) := by
  rw [readThrottle, saveThrottle, childStr_k, childStr_v (zero_notMem_printInt _)]
  simp only [Option.bind_eq_bind, Option.bind_some, lexical.cast_printInt,
    locParseString2MapSS_locParseMapSS2String]
  rfl

theorem readRoute_saveRoute (rule : LocateType × RouteStrategyType)
    (rules : OrderedMap LocateType RouteStrategyType) :
    readRoute rules (saveRoute rule) = some (rules.set rule.1 rule.2) := by
  rw [readRoute, saveRoute, childStr_k, childStr_v (zero_notMem_locParseMapSS2String _)]
  simp only [Option.bind_eq_bind, Option.bind_some, locParseString2MapSS_locParseMapSS2String]
  rfl

theorem readNode_saveNode (node : Int32 × Int32) (ring : OrderedMap Int32 Int32) :
    readNode lexical ring (saveNode node) = some (ring.set node.1 node.2) := by
  have hzero : 0 ∉ printInt node.1 ++ 119 :: printInt node.2 := by
    rw [List.mem_append, List.mem_cons]
    rintro (hmem | hmem | hmem)
    · exact zero_notMem_printInt _ hmem
    · cases hmem
    · exact zero_notMem_printInt _ hmem
  have hcut := cutAt_append (notMem_printInt node.1 (rfl : isDigit 119 = false) (by decide))
    (printInt node.2)
  rw [readNode, saveNode, glGetStr_textElement _ hzero, hcut]
  simp only [Option.bind_eq_bind, Option.bind_some, lexical.cast_printInt]
  rfl

section Written

variable {Key Value : Type} [LinearOrder Key]

/-- A section with an item for each entry of a map is read as the map. -/
theorem readSection_entries {map : OrderedMap Key Value}
    {read : OrderedMap Key Value → TiXmlElement → Option (OrderedMap Key Value)}
    {save : Key × Value → TiXmlElement} {conf : TiXmlElement} {name item : String}
    (hsection : conf.firstChildElement name = some (element name (map.entries.map save)))
    (hitem : ∀ entry, (save entry).value = item)
    (hread : ∀ entry ∈ map.entries, ∀ past,
      read past (save entry) = some (past.set entry.1 entry.2)) :
    readSection conf name item read .empty = some map := by
  have hsiblings : (element name (map.entries.map save)).siblings item = map.entries.map save := by
    apply List.filter_eq_self.mpr
    intro elm helm
    obtain ⟨entry, -, rfl⟩ := List.mem_map.mp helm
    simpa using hitem entry
  have hloop : ∀ entries : List (Key × Value), (∀ entry ∈ entries, entry ∈ map.entries) →
      ∀ past, (entries.map save).foldlM read past =
        some (entries.foldl (fun map entry => map.set entry.1 entry.2) past) := by
    intro entries hentries
    induction entries with
    | nil => exact fun past => rfl
    | cons entry rest ih =>
        intro past
        rw [List.map_cons, List.foldlM_cons, hread entry (hentries entry List.mem_cons_self)]
        exact ih (fun other hother => hentries other (List.mem_cons_of_mem _ hother)) _
  rw [readSection, hsection, Option.bind_some, hsiblings, hloop _ (fun _ hmem => hmem),
    map.foldl_set_entries]

end Written

theorem readDocument_document {maps : Maps} (hdistinct : Distinct maps)
    (hwritable : Writable maps) : readDocument lexical (document maps) = some maps := by
  have hconf : (document maps).firstChildElement "conf" = some (root maps) := rfl
  have hokcheck : (root maps).firstChildElement "zzz_xml_parse_okcheck" =
      some (element "zzz_xml_parse_okcheck" []) := rfl
  have hdao : readSection (root maps) "dao_list" "dao" (readAddress lexical) .empty =
      some maps.daoList :=
    readSection_entries rfl (fun _ => rfl) fun entry hentry past =>
      readAddress_saveAddress (hdistinct.dao entry hentry) (hwritable.dao entry hentry) past "dao"
  have hproxy : readSection (root maps) "proxy_list" "proxy" (readAddress lexical) .empty =
      some maps.proxyList :=
    readSection_entries rfl (fun _ => rfl) fun entry hentry past =>
      readAddress_saveAddress (hdistinct.proxy entry hentry) (hwritable.proxy entry hentry) past
        "proxy"
  have hlicence : readSection (root maps) "licence" "rule" readLicence .empty =
      some maps.licenceRule :=
    readSection_entries rfl (fun _ => rfl) fun entry hentry past =>
      readLicence_saveLicence (hwritable.licence entry hentry) past
  have hthrottle : readSection (root maps) "throttle" "rule" (readThrottle lexical) .empty =
      some maps.throttleRule :=
    readSection_entries rfl (fun _ => rfl) fun entry _ past => readThrottle_saveThrottle entry past
  have hroute : readSection (root maps) "route" "rule" readRoute .empty =
      some maps.routestrategyRule :=
    readSection_entries rfl (fun _ => rfl) fun entry _ past => readRoute_saveRoute entry past
  have hnode : readSection (root maps) "hashring" "node" (readNode lexical) .empty =
      some maps.hashringGroup2weight :=
    readSection_entries rfl (fun _ => rfl) fun entry _ past => readNode_saveNode entry past
  rw [readDocument, hconf]
  simp only [Option.bind_eq_bind, Option.bind_some, hokcheck, hdao, hproxy, hlicence, hthrottle,
    hroute, hnode]
  rfl

variable {libs : ConfLibs}

/-- Maps that were accepted are accepted again when they are read from what they are saved as. -/
theorem accepted_of_saved {strXml content : Text} {maps : Maps}
    (haccepted : accepted libs strXml = some maps)
    (hcontent : libs.parse (cstr content) = readBack (document maps)) :
    accepted libs content = some maps := by
  obtain ⟨hread, hcheck⟩ := accepted_iff.mp haccepted
  have hdistinct := accepted_distinct haccepted
  refine accepted_iff.mpr ⟨?_, hcheck⟩
  rw [hcontent, readDocument_readBack,
    readDocument_document hdistinct (readDocument_writable hread)]

/-- A configuration that was taken over, saved, and loaded again is the same. -/
theorem parse_saved {conf held other : PxGlobalConf} {strXml md5 content md5' : Text}
    {saves : Bool} (hheld : parseGlobalConfXml libs conf strXml md5 = (0, held))
    (hsaved : glInnerSaveToFile libs held saves = (0, some content))
    (hxml : libs.parse (cstr (libs.print (document held.maps))) =
      readBack (document held.maps)) :
    parseGlobalConfXml libs other content md5' = (0, ⟨held.maps, md5'⟩) := by
  have hcontent : content = libs.print (document held.maps) := by
    cases saves with
    | true =>
        cases hsaved
        rfl
    | false => cases hsaved
  unfold parseGlobalConfXml at hheld
  cases haccepted : accepted libs strXml with
  | none =>
      rw [haccepted] at hheld
      cases hheld
  | some maps =>
      rw [haccepted] at hheld
      cases hheld
      rw [parseGlobalConfXml, accepted_of_saved haccepted (by rw [hcontent, hxml])]

/-- A server, a licence and a ring. -/
def sampleMaps : Maps where
  daoList := OrderedMap.empty.set (text "0") ⟨[(text "127.0.0.1", 345)], 0⟩
  proxyList := .empty
  licenceRule := OrderedMap.empty.set (OrderedMap.empty.set (text "A") (text "sdb")) 1
  throttleRule := .empty
  routestrategyRule := .empty
  hashringGroup2weight := OrderedMap.empty.set 10 1

def sampleContent : Text :=
  text "<?xml version=\"1.0\" ?>\n<conf>\n    <dao_list>\n        <dao>\n" ++
    text "            <id>0</id>\n            <ipports>127.0.0.1:345</ipports>\n" ++
    text "            <groupid>0</groupid>\n        </dao>\n    </dao_list>\n" ++
    text "    <proxy_list />\n    <licence>\n        <rule>A=sdb</rule>\n    </licence>\n" ++
    text "    <throttle />\n    <route />\n    <hashring>\n        <node>10w1</node>\n" ++
    text "    </hashring>\n    <zzz_xml_parse_okcheck />\n</conf>\n"

/-- The libraries on this content and on its document. -/
def sampleLibs : ConfLibs where
  parse _ := readBack (document sampleMaps)
  print _ := sampleContent
  lexical := ⟨fun str _ => atoi str, 0, fun value _ => atoi_printInt value⟩
  getMD5 _ := text "619b3b3177d66146056c5c0d1cece9fa"

theorem parse_saved_sample :
    parseGlobalConfXml sampleLibs ⟨sampleMaps, sampleLibs.getMD5 sampleContent⟩ sampleContent [] =
      (0, ⟨sampleMaps, []⟩) :=
  @parse_saved sampleLibs ⟨⟨.empty, .empty, .empty, .empty, .empty, .empty⟩, []⟩
    ⟨sampleMaps, sampleLibs.getMD5 sampleContent⟩ _ sampleContent
    (sampleLibs.getMD5 sampleContent) sampleContent [] true rfl rfl rfl

end PxGlobalConf

end ServiceFrame
