import ServiceFrame.DaoProxy.ConfCodec

/-! # The global configuration

`PxGlobalConf` of `dao_proxy`: six maps that are read from an XML content, checked, and taken
over together. An update also writes the content to a file; a backup writes the maps.
-/

namespace ServiceFrame

open Foundation

/-- What is used of an element, or of a document. The text is that of a first child which is
a text. -/
structure TiXmlElement where
  value : String
  getText : Option Text
  children : List TiXmlElement

namespace TiXmlElement

def firstChildElement (elm : TiXmlElement) (name : String) : Option TiXmlElement :=
  elm.children.find? (·.value = name)

/-- `FirstChildElement(name)`, and `NextSiblingElement(name)` until it is null. -/
def siblings (elm : TiXmlElement) (name : String) : List TiXmlElement :=
  elm.children.filter (·.value = name)

end TiXmlElement

namespace PxGlobalConf

structure PrcAdd where
  ipports : List IpPort
  groupid : Int32
deriving DecidableEq

abbrev LocateType := OrderedMap Text Text

abbrev RouteStrategyType := OrderedMap Text Text

/-- The maps of a configuration. -/
structure Maps where
  daoList : OrderedMap Text PrcAdd
  proxyList : OrderedMap Text PrcAdd
  licenceRule : OrderedMap LocateType Int32
  throttleRule : OrderedMap LocateType Int32
  routestrategyRule : OrderedMap LocateType RouteStrategyType
  hashringGroup2weight : OrderedMap Int32 Int32

end PxGlobalConf

structure PxGlobalConf where
  maps : PxGlobalConf.Maps
  strGlobalConfMd5 : Text

/-- What the program has of its libraries: `TiXmlDocument::Parse` and `SaveFile` on the content
of a file, the casts between strings and numbers, and `getMD5`. -/
structure ConfLibs where
  parse : Text → TiXmlElement
  print : TiXmlElement → Text
  lexical : JLexical
  getMD5 : Text → Text

namespace PxGlobalConf

/-! ## Reading -/

section Reading

variable (lexical : JLexical)

def glGetStr (elm : TiXmlElement) : Text := cstr (elm.getText.getD [])

/-- The text of a child that has to be there. -/
def childStr (elm : TiXmlElement) (name : String) : Option Text :=
  (elm.firstChildElement name).map glGetStr

/-- A section that has to be there, and the loop over its items. -/
def readSection {Map : Type} (conf : TiXmlElement) (name item : String)
    (read : Map → TiXmlElement → Option Map) (none : Map) : Option Map :=
  (conf.firstChildElement name).bind fun section_ => (section_.siblings item).foldlM read none

def readAddress (list : OrderedMap Text PrcAdd) (elm : TiXmlElement) :
    Option (OrderedMap Text PrcAdd) := do
  let id ← childStr elm "id"
  let ipports ← childStr elm "ipports"
  let groupid ← childStr elm "groupid"
  return list.set id ⟨convertStr2ipport ipports, lexical.cast groupid lexical.uninit⟩

def readLicence (rules : OrderedMap LocateType Int32) (elm : TiXmlElement) :
    Option (OrderedMap LocateType Int32) :=
  some (rules.set (locParseString2MapSS (glGetStr elm)) 1)

def readThrottle (rules : OrderedMap LocateType Int32) (elm : TiXmlElement) :
    Option (OrderedMap LocateType Int32) := do
  let k ← childStr elm "k"
  let v ← childStr elm "v"
  return rules.set (locParseString2MapSS k) (lexical.cast v lexical.uninit)

def readRoute (rules : OrderedMap LocateType RouteStrategyType) (elm : TiXmlElement) :
    Option (OrderedMap LocateType RouteStrategyType) := do
  let k ← childStr elm "k"
  let v ← childStr elm "v"
  return rules.set (locParseString2MapSS k) (locParseString2MapSS v)

/-- A group and its weight, with a `w` between them. -/
def readNode (ring : OrderedMap Int32 Int32) (elm : TiXmlElement) :
    Option (OrderedMap Int32 Int32) := do
  let (groupid, weight) ← cutAt 119 (glGetStr elm)
  return ring.set (lexical.cast groupid 0) (lexical.cast weight 0)

/-- The part of `parseGlobalConfXml` before the check. -/
def readDocument (doc : TiXmlElement) : Option Maps := do
  let conf ← doc.firstChildElement "conf"
  let _ ← conf.firstChildElement "zzz_xml_parse_okcheck"
  let daoList ← readSection conf "dao_list" "dao" (readAddress lexical) .empty
  let proxyList ← readSection conf "proxy_list" "proxy" (readAddress lexical) .empty
  let licenceRule ← readSection conf "licence" "rule" readLicence .empty
  let throttleRule ← readSection conf "throttle" "rule" (readThrottle lexical) .empty
  let routestrategyRule ← readSection conf "route" "rule" readRoute .empty
  let hashringGroup2weight ← readSection conf "hashring" "node" (readNode lexical) .empty
  return ⟨daoList, proxyList, licenceRule, throttleRule, routestrategyRule, hashringGroup2weight⟩

end Reading

/-! ## Checking -/

section Checking

/-- The result of `validate_conf_para` when it is not 0, and the text of the error. -/
structure ConfError where
  code : Int
  errorInfo : String
deriving DecidableEq

/-- One address against the set of those met before. -/
def checkIpPort (met : List IpPort) (ipport : IpPort) : Except ConfError (List IpPort) :=
  if ipport ∈ met then .error ⟨2, "ipport conflict"⟩ else .ok (ipport :: met)

def checkAddress (met : List IpPort) (entry : Text × PrcAdd) : Except ConfError (List IpPort) :=
  if entry.2.ipports.isEmpty then .error ⟨1, "iplist empty"⟩
  else entry.2.ipports.foldlM checkIpPort met

def checkLocate (locate : LocateType) : Except ConfError Unit :=
  if locate.entries.all fun part => [text "A", text "D", text "G"].contains part.1 then .ok ()
  else .error ⟨3, "locate out of bound"⟩

def checkThrottle (rule : LocateType × Int32) : Except ConfError Unit := do
  checkLocate rule.1
  if rule.2 < 0 then .error ⟨4, "throttle less then zero"⟩

/-- Each letter is known, and those of the last kind stand at the end. -/
def seqRecognized : Text → Bool
  | [] => true
  | [last] => (text "ABCEUFDRL").contains last
  | letter :: rest => (text "ABCEUF").contains letter && seqRecognized rest

def checkStrategy (lexical : JLexical) (strategy : Text × Text) : Except ConfError Unit :=
  if strategy.1 = text "S" then
    if seqRecognized strategy.2 then .ok () else .error ⟨6, "strategy seq unrecognize"⟩
  else if strategy.1 = text "U" then
    let level := lexical.cast strategy.2 (-1)
    if level < 0 ∨ level > 2 then .error ⟨7, "usability level error"⟩ else .ok ()
  else if strategy.1 = text "F" then
    if parseStr2SetInt lexical strategy.2 = ∅ then .error ⟨8, "force group empty"⟩ else .ok ()
  else if strategy.1 = text "E" then .ok ()
  else .error ⟨5, "strategy value unrecognize"⟩

def checkRoute (lexical : JLexical) (rule : LocateType × RouteStrategyType) :
    Except ConfError Unit := do
  checkLocate rule.1
  rule.2.entries.forM (checkStrategy lexical)

def checkNode (node : Int32 × Int32) : Except ConfError Unit :=
  if node.2 ≤ 0 ∨ node.2 > 1000 then .error ⟨9, "hash ring out of bound"⟩ else .ok ()

/-- The two loops over addresses, which share the set of those met. -/
def checkAddresses (maps : Maps) : Except ConfError (List IpPort) := do
  let met ← maps.daoList.entries.foldlM checkAddress []
  maps.proxyList.entries.foldlM checkAddress met

def validateConfPara (lexical : JLexical) (maps : Maps) : Except ConfError Unit := do
  let _ ← checkAddresses maps
  maps.throttleRule.entries.forM checkThrottle
  maps.routestrategyRule.entries.forM (checkRoute lexical)
  if maps.hashringGroup2weight.isEmpty then .error ⟨10, "hash ring empty"⟩
  maps.hashringGroup2weight.entries.forM checkNode
  maps.licenceRule.entries.forM fun rule => checkLocate rule.1

theorem checked_bind {First Last : Type} {first : Except ConfError First}
    {next : First → Except ConfError Last} {last : Last} (hboth : first >>= next = .ok last) :
    ∃ middle, first = .ok middle ∧ next middle = .ok last := by
  cases first with
  | error err => cases hboth
  | ok middle => exact ⟨middle, rfl, hboth⟩

/-- The addresses of all servers of a list. -/
def ipportsOf (list : OrderedMap Text PrcAdd) : List IpPort := list.entries.flatMap (·.2.ipports)

theorem checkIpPort_loop {ipports met final : List IpPort} (hmet : met.Nodup)
    (hloop : ipports.foldlM checkIpPort met = .ok final) :
    final = ipports.reverse ++ met ∧ final.Nodup := by
  induction ipports generalizing met with
  | nil =>
      cases hloop
      exact ⟨rfl, hmet⟩
  | cons ipport rest ih =>
      rw [List.foldlM_cons] at hloop
      obtain ⟨middle, hcheck, hrest⟩ := checked_bind hloop
      unfold checkIpPort at hcheck
      split at hcheck
      next => cases hcheck
      next hnew =>
        cases hcheck
        obtain ⟨hfinal, hnodup⟩ := ih (List.nodup_cons.mpr ⟨hnew, hmet⟩) hrest
        refine ⟨?_, hnodup⟩
        rw [hfinal, List.reverse_cons, List.append_assoc, List.singleton_append]

theorem checkAddress_loop {entries : List (Text × PrcAdd)} {met final : List IpPort}
    (hmet : met.Nodup) (hloop : entries.foldlM checkAddress met = .ok final) :
    final = (entries.flatMap (·.2.ipports)).reverse ++ met ∧ final.Nodup ∧
      ∀ entry ∈ entries, entry.2.ipports ≠ [] := by
  induction entries generalizing met with
  | nil =>
      cases hloop
      exact ⟨rfl, hmet, fun _ hmem => absurd hmem List.not_mem_nil⟩
  | cons entry rest ih =>
      rw [List.foldlM_cons] at hloop
      obtain ⟨middle, hcheck, hrest⟩ := checked_bind hloop
      unfold checkAddress at hcheck
      split at hcheck
      next => cases hcheck
      next hsome =>
        obtain ⟨hmiddle, hnodup⟩ := checkIpPort_loop hmet hcheck
        obtain ⟨hfinal, hfinalNodup, hothers⟩ := ih hnodup hrest
        refine ⟨?_, hfinalNodup, ?_⟩
        · rw [hfinal, hmiddle, List.flatMap_cons, List.reverse_append, List.append_assoc]
        · intro other hother
          rcases List.mem_cons.mp hother with rfl | hother
          · simpa using hsome
          · exact hothers other hother

/-- A server has an address, and no address is of two servers or twice of one. -/
structure Distinct (maps : Maps) : Prop where
  dao : ∀ entry ∈ maps.daoList.entries, entry.2.ipports ≠ []
  proxy : ∀ entry ∈ maps.proxyList.entries, entry.2.ipports ≠ []
  nodup : (ipportsOf maps.daoList ++ ipportsOf maps.proxyList).Nodup

theorem distinct_of_checked {maps : Maps} {met : List IpPort}
    (hcheck : checkAddresses maps = .ok met) : Distinct maps := by
  obtain ⟨middle, hdao, hproxy⟩ := checked_bind hcheck
  obtain ⟨hmiddle, hmiddleNodup, hdaoSome⟩ := checkAddress_loop List.nodup_nil hdao
  obtain ⟨hmet, hmetNodup, hproxySome⟩ := checkAddress_loop hmiddleNodup hproxy
  refine ⟨hdaoSome, hproxySome, ?_⟩
  rw [hmet, hmiddle, List.append_nil, ← List.reverse_append, List.nodup_reverse] at hmetNodup
  exact hmetNodup

end Checking

/-! ## Loading, updating and saving -/

section Updating

variable (libs : ConfLibs)

/-- The maps that `parseGlobalConfXml` takes over, if it accepts the content. -/
def accepted (strXml : Text) : Option Maps :=
  (readDocument libs.lexical (libs.parse (cstr strXml))).bind fun maps =>
    match validateConfPara libs.lexical maps with
    | .ok () => some maps
    | .error _ => none

def parseGlobalConfXml (conf : PxGlobalConf) (strXml md5 : Text) : Int × PxGlobalConf :=
  match accepted libs strXml with
  | some maps => (0, ⟨maps, md5⟩)
  | none => (-1, conf)

/-- `updateGlobalConf`, with whether `gl_write_to_file` succeeds. -/
def updateGlobalConf (conf : PxGlobalConf) (strXmlContent : Text) (writes : Bool) :
    Int × PxGlobalConf :=
  let md5 := libs.getMD5 strXmlContent
  let (parsed, conf) := parseGlobalConfXml libs conf strXmlContent md5
  if parsed ≠ 0 then (-1, conf)
  else if !writes then (-2, conf)
  else (0, { conf with strGlobalConfMd5 := md5 })

variable {libs}

theorem accepted_iff {strXml : Text} {maps : Maps} : accepted libs strXml = some maps ↔
    readDocument libs.lexical (libs.parse (cstr strXml)) = some maps ∧
      validateConfPara libs.lexical maps = .ok () := by
  rw [accepted, Option.bind_eq_some_iff]
  constructor
  · rintro ⟨read, hread, hcheck⟩
    split at hcheck
    next hok =>
      cases hcheck
      exact ⟨hread, hok⟩
    next => cases hcheck
  · rintro ⟨hread, hok⟩
    exact ⟨maps, hread, by rw [hok]⟩

theorem accepted_distinct {strXml : Text} {maps : Maps}
    (haccepted : accepted libs strXml = some maps) : Distinct maps := by
  obtain ⟨met, hmet, -⟩ := checked_bind (accepted_iff.mp haccepted).2
  exact distinct_of_checked hmet

theorem updateGlobalConf_rejected {strXmlContent : Text}
    (hrejected : accepted libs strXmlContent = none) (conf : PxGlobalConf) (writes : Bool) :
    updateGlobalConf libs conf strXmlContent writes = (-1, conf) := by
  rw [updateGlobalConf, parseGlobalConfXml, hrejected]
  rfl

theorem updateGlobalConf_accepted {strXmlContent : Text} {maps : Maps}
    (haccepted : accepted libs strXmlContent = some maps) (conf : PxGlobalConf) (writes : Bool) :
    updateGlobalConf libs conf strXmlContent writes =
      (if writes then 0 else -2, ⟨maps, libs.getMD5 strXmlContent⟩) := by
  rw [updateGlobalConf, parseGlobalConfXml, haccepted]
  cases writes with
  | true => rfl
  | false => rfl

variable (libs)

/-- A failed update leaves the maps and the digest, and one that succeeds takes all of them
from the content. -/
def UpdatesWhole (conf : PxGlobalConf) (strXmlContent : Text) (writes : Bool) : Prop :=
  let (result, next) := updateGlobalConf libs conf strXmlContent writes
  (result ≠ 0 → next = conf) ∧
    (result = 0 → accepted libs strXmlContent = some next.maps ∧
      next.strGlobalConfMd5 = libs.getMD5 strXmlContent)

/-- The maps and the digest are taken over before the file is written. -/
theorem updatesWhole_iff (conf : PxGlobalConf) (strXmlContent : Text) (writes : Bool) :
    UpdatesWhole libs conf strXmlContent writes ↔
      writes = true ∨ accepted libs strXmlContent = none ∨
        (accepted libs strXmlContent = some conf.maps ∧
          conf.strGlobalConfMd5 = libs.getMD5 strXmlContent) := by
  unfold UpdatesWhole
  cases haccepted : accepted libs strXmlContent with
  | none => simp [updateGlobalConf_rejected haccepted]
  | some maps =>
      rw [updateGlobalConf_accepted haccepted]
      cases writes with
      | true => simp
      | false =>
          constructor
          · intro hwhole
            have hsame : (⟨maps, libs.getMD5 strXmlContent⟩ : PxGlobalConf) = conf :=
              hwhole.1 (by decide)
            rw [← hsame]
            exact Or.inr (Or.inr ⟨rfl, rfl⟩)
          · rintro (hwrites | hrejected | ⟨hmaps, hmd5⟩)
            · cases hwrites
            · cases hrejected
            · cases hmaps
              exact ⟨fun _ => by rw [← hmd5], fun hzero => absurd hzero (by decide)⟩

/-- A content without servers and rules, and a ring with one group. -/
def ringContent (node : String) : Text :=
  text "<conf><zzz_xml_parse_okcheck/><dao_list/><proxy_list/><licence/><throttle/><route/>" ++
    text "<hashring><node>" ++ text node ++ text "</node></hashring></conf>"

def ringDocument (node : String) : TiXmlElement :=
  ⟨"", none, [⟨"conf", none, [⟨"zzz_xml_parse_okcheck", none, []⟩, ⟨"dao_list", none, []⟩,
    ⟨"proxy_list", none, []⟩, ⟨"licence", none, []⟩, ⟨"throttle", none, []⟩,
    ⟨"route", none, []⟩, ⟨"hashring", none, [⟨"node", some (text node), []⟩]⟩]⟩]⟩

/-- The libraries on two such contents. -/
def ringLibs : ConfLibs where
  parse content := ringDocument (if content = ringContent "10w1" then "10w1" else "10w2")
  print _ := []
  lexical := ⟨fun str _ => atoi str, 0, fun value _ => atoi_printInt value⟩
  getMD5 content :=
    if content = ringContent "10w1" then text "ea38a79219a9454db0f4d5a1ce1f57fc"
    else text "020c65feee07074f3ed213ff4f7fcf34"

/-- The weight of the group is changed, and the file is not written. -/
theorem update_half_taken : ¬ UpdatesWhole ringLibs
    (updateGlobalConf ringLibs ⟨⟨.empty, .empty, .empty, .empty, .empty, .empty⟩, []⟩
      (ringContent "10w1") true).2 (ringContent "10w2") false := by
  intro hwhole
  have hsame := congrArg strGlobalConfMd5 (hwhole.1 (by decide +kernel))
  revert hsame
  decide +kernel

/-- An element with a text, which a `char*` is given for. -/
def textElement (value : String) (str : Text) : TiXmlElement := ⟨value, some (cstr str), []⟩

def element (value : String) (children : List TiXmlElement) : TiXmlElement :=
  ⟨value, none, children⟩

def saveAddress (item : String) (entry : Text × PrcAdd) : TiXmlElement :=
  element item [textElement "id" entry.1,
    textElement "ipports" (convertIpport2str entry.2.ipports),
    textElement "groupid" (printInt entry.2.groupid)]

def saveLicence (rule : LocateType × Int32) : TiXmlElement :=
  textElement "rule" (locParseMapSS2String rule.1)

def saveThrottle (rule : LocateType × Int32) : TiXmlElement :=
  element "rule" [textElement "k" (locParseMapSS2String rule.1),
    textElement "v" (printInt rule.2)]

def saveRoute (rule : LocateType × RouteStrategyType) : TiXmlElement :=
  element "rule" [textElement "k" (locParseMapSS2String rule.1),
    textElement "v" (locParseMapSS2String rule.2)]

def saveNode (node : Int32 × Int32) : TiXmlElement :=
  textElement "node" (printInt node.1 ++ 119 :: printInt node.2)

def root (maps : Maps) : TiXmlElement :=
  element "conf" [
    element "dao_list" (maps.daoList.entries.map (saveAddress "dao")),
    element "proxy_list" (maps.proxyList.entries.map (saveAddress "proxy")),
    element "licence" (maps.licenceRule.entries.map saveLicence),
    element "throttle" (maps.throttleRule.entries.map saveThrottle),
    element "route" (maps.routestrategyRule.entries.map saveRoute),
    element "hashring" (maps.hashringGroup2weight.entries.map saveNode),
    element "zzz_xml_parse_okcheck" []]

/-- The document that `gl_inner_saveToFile` builds. -/
def document (maps : Maps) : TiXmlElement := element "" [root maps]

/-- `gl_inner_saveToFile`: its result, and the content of the file when `SaveFile` succeeds. -/
def glInnerSaveToFile (conf : PxGlobalConf) (saves : Bool) : Int × Option Text :=
  if saves then (0, some (libs.print (document conf.maps))) else (-1, none)

end Updating

end PxGlobalConf

end ServiceFrame
