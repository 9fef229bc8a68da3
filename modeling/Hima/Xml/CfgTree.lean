import Hima.Lib.CountedTable
import Hima.Xml.Nodes

/-!
# The configuration file

`ipacm_cfg_xml_parse_tree` walks over the tree of `IPACM_cfg.xml`. The element of an entry counts it,
and what is read later goes to the last entry that was counted.
-/
namespace Hima.Xml

open SiblingTree CountedTable

/-- `IPA_MAX_IFACE_ENTRIES` -/
def ipaMaxIfaceEntries : Nat := 15

/-- `IPA_MAX_PRIVATE_SUBNET_ENTRIES` -/
def ipaMaxPrivateSubnetEntries : Nat := 3

/-- `IPA_MAX_ALG_ENTRIES` -/
def ipaMaxAlgEntries : Nat := 20

/-- `IPA_IFACE_NAME_LEN` -/
def ipaIfaceNameLen : Nat := 16

/-- `ipacm_iface_type` -/
inductive IpacmIfaceType where
  | lanIf
  | wlanIf
  | wanIf
  | virtualIf
  | ethIf
  | embmsIf
  | oduIf
  | unknownIf
deriving DecidableEq

/-- What the file gives of `ipa_ifi_dev_name_t`. -/
structure IpaIfiDevName where
  ifaceName : Vector UInt8 ipaIfaceNameLen := .replicate _ 0
  ifCat : IpacmIfaceType := .lanIf
deriving DecidableEq

/-- `ipa_private_subnet` -/
structure IpaPrivateSubnet where
  subnetAddr : UInt32 := 0
  subnetMask : UInt32 := 0
deriving DecidableEq

/-- `ipacm_alg` -/
structure IpacmAlg where
  protocol : UInt8 := 0
  port : UInt16 := 0
deriving DecidableEq

/-- `IPACM_conf_t`; as it starts, after the `memset`. -/
structure IpacmConf where
  ifaceConfig : Table IpaIfiDevName ipaMaxIfaceEntries := { entries := .replicate _ {} }
  privateSubnetConfig : Table IpaPrivateSubnet ipaMaxPrivateSubnetEntries := { entries := .replicate _ {} }
  algConfig : Table IpacmAlg ipaMaxAlgEntries := { entries := .replicate _ {} }
  natMaxEntries : Int := 0
  routerModeEnable : Bool := false
deriving DecidableEq

/-! ### Tags -/

inductive CfgTag where
  | system
  | odu
  | ipacmCfg
  | ipacmIfaceCfg
  | iface
  | ipacmPrivateSubnetCfg
  | subnet
  | ipacmAlg
  | alg
  | ipacmNat
  | oduMode
  | name
  | category
  | subnetAddress
  | subnetMask
  | protocol
  | port
  | natMaxEntries
deriving DecidableEq

/-- The tags in the order in which a name is compared with them. -/
def cfgTags : List (String × CfgTag) :=
  [("system", .system), ("ODUCFG", .odu), ("IPACM", .ipacmCfg), ("IPACMIface", .ipacmIfaceCfg),
    ("Iface", .iface), ("IPACMPrivateSubnet", .ipacmPrivateSubnetCfg), ("Subnet", .subnet),
    ("IPACMALG", .ipacmAlg), ("ALG", .alg), ("IPACMNAT", .ipacmNat), ("Mode", .oduMode), ("Name", .name),
    ("Category", .category), ("SubnetAddress", .subnetAddress), ("SubnetMask", .subnetMask),
    ("Protocol", .protocol), ("Port", .port), ("MaxNatEntries", .natMaxEntries)]

/-- The elements whose children are parsed; the others are read for their text. -/
def CfgTag.isContainer : CfgTag → Bool
  | .system | .odu | .ipacmCfg | .ipacmIfaceCfg | .iface | .ipacmPrivateSubnetCfg | .subnet | .ipacmAlg
  | .alg | .ipacmNat => true
  | _ => false

/-- The categories in the order in which a text is compared with them. -/
def ifaceCategories : List (String × IpacmIfaceType) :=
  [("WAN", .wanIf), ("LAN", .lanIf), ("WLAN", .wlanIf), ("VIRTUAL", .virtualIf), ("UNKNOWN", .unknownIf),
    ("ETH", .ethIf), ("ODU", .oduIf)]

def algProtocols : List (String × UInt8) := [("TCP", 6), ("UDP", 17)]

def oduModes : List (String × Bool) := [("router", true), ("bridge", false)]

/-- The first word that begins with the text: only as many bytes are compared as the text has. -/
def beginningWith {V : Type} (words : List (String × V)) (content : Text) : Option V :=
  (words.find? fun word => strncasecmp content (text word.1) content.length).map Prod.snd

/-! ### `ipacm_cfg_xml_parse_tree` -/

/-- `strncpy(iface_name, content_buf, str_size)` with a size that fits. -/
def strncpyName (ifaceName : Vector UInt8 ipaIfaceNameLen) (contentBuf : Text) :
    Vector UInt8 ipaIfaceNameLen :=
  .ofFn fun i => contentBuf.getD i ifaceName[i]

/-- Writes the entry behind `num - 1`; `none` when it is outside the table. -/
def IpacmConf.writeIface (config : IpacmConf) (f : IpaIfiDevName → IpaIfiDevName) : Option IpacmConf :=
  (config.ifaceConfig.modifyLast f).map ({ config with ifaceConfig := · })

def IpacmConf.writeSubnet (config : IpacmConf) (f : IpaPrivateSubnet → IpaPrivateSubnet) :
    Option IpacmConf :=
  (config.privateSubnetConfig.modifyLast f).map ({ config with privateSubnetConfig := · })

def IpacmConf.writeAlg (config : IpacmConf) (f : IpacmAlg → IpacmAlg) : Option IpacmConf :=
  (config.algConfig.modifyLast f).map ({ config with algConfig := · })

/-- An element that counts an entry. -/
def CfgTag.count (config : IpacmConf) : CfgTag → IpacmConf
  | .iface => { config with ifaceConfig := config.ifaceConfig.push }
  | .subnet => { config with privateSubnetConfig := config.privateSubnetConfig.push }
  | .alg => { config with algConfig := config.algConfig.push }
  | _ => config

/-- An element that is read for its text, which is in `content_buf`. `none` when it writes outside an
array. -/
def CfgTag.read (libc : Libc) (contentBuf : Text) (config : IpacmConf) : CfgTag → Option IpacmConf
  | .oduMode =>
    match beginningWith oduModes contentBuf with
    | some mode => some { config with routerModeEnable := mode }
    | none => some config
  | .name =>
    -- the size that is given to `strncpy` is that of the text
    if contentBuf.length ≤ ipaIfaceNameLen then
      config.writeIface fun e => { e with ifaceName := strncpyName e.ifaceName contentBuf }
    else none
  | .category =>
    match beginningWith ifaceCategories contentBuf with
    | some cat => config.writeIface fun e => { e with ifCat := cat }
    | none => some config
  | .subnetAddress =>
    config.writeSubnet fun e => { e with subnetAddr := libc.inetAddr (terminated contentBuf) }
  | .subnetMask =>
    config.writeSubnet fun e => { e with subnetMask := libc.inetAddr (terminated contentBuf) }
  | .protocol =>
    match beginningWith algProtocols (terminated contentBuf) with
    | some ipproto => config.writeAlg fun e => { e with protocol := ipproto }
    | none => some config
  | .port => config.writeAlg fun e => { e with port := .ofInt (atoi contentBuf) }
  | .natMaxEntries => some { config with natMaxEntries := atoi contentBuf }
  | _ => some config

def CfgTag.enter (libc : Libc) (content : Option Text) (config : IpacmConf) (tag : CfgTag) :
    Option IpacmConf :=
  if tag.isContainer then some (tag.count config)
  else
    match content with
    | some content => (copyContent content).bind (tag.read libc · config)
    | none => some config

def cfgTagOf : XmlLabel → Option CfgTag
  | .element name => tagOf cfgTags name
  | _ => none

/-- The nodes whose children are parsed. -/
def cfgDescends (label : XmlLabel) : Bool := (cfgTagOf label).any CfgTag.isContainer

/-- The body of the loop: only elements are looked at, and only those whose name is known. -/
def enterCfg (libc : Libc) (label : XmlLabel) (children : XmlNode) (_ : Unit) (config : IpacmConf) :
    Option (Unit × IpacmConf) :=
  match cfgTagOf label with
  | some tag => (tag.enter libc (readContentElement children) config).map ((), ·)
  | none => some ((), config)

/-- `ipacm_cfg_xml_parse_tree`; `none` when it writes outside an array. -/
def ipacmCfgXmlParseTree (libc : Libc) (xmlNode : XmlNode) (config : IpacmConf) : Option IpacmConf :=
  walk cfgDescends (enterCfg libc) () xmlNode () config

end Hima.Xml
