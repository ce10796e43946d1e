import CallAtlas.Data.SortedMap
import CallAtlas.Document.Basic
import CallAtlas.Path
import CallAtlas.Sdk.Convention

namespace CallAtlas

open CallAtlas.Text

def usualSkippedDirs : List String :=
  ["acceptance", "deprecated", "internal", "helper", "utils"]

def usualCodeMarkers : List String := ["AUTO GENERATED CODE", "Code generated"]

def usualDeprecated : List String :=
  ["data_source_huaweicloud_antiddos_v1",
   "data_source_huaweicloud_compute_availability_zones_v2",
   "data_source_huaweicloud_csbs_backup_policy_v1",
   "data_source_huaweicloud_csbs_backup_v1",
   "data_source_huaweicloud_networking_network_v2",
   "data_source_huaweicloud_networking_subnet_v2",
   "data_source_huaweicloud_vbs_backup_policy_v2",
   "data_source_huaweicloud_vbs_backup_v2",
   "data_source_huaweicloud_cts_tracker_v1",
   "resource_huaweicloud_blockstorage_volume_v2",
   "resource_huaweicloud_compute_floatingip_v2",
   "resource_huaweicloud_compute_floatingip_associate_v2",
   "resource_huaweicloud_compute_secgroup_v2",
   "resource_huaweicloud_csbs_backup_policy_v1",
   "resource_huaweicloud_csbs_backup_v1",
   "resource_huaweicloud_dms_instance_v1",
   "resource_huaweicloud_ecs_instance_v1",
   "resource_huaweicloud_fw_firewall_group_v2",
   "resource_huaweicloud_fw_policy_v2",
   "resource_huaweicloud_fw_rule_v2",
   "resource_huaweicloud_networking_floatingip_v2",
   "resource_huaweicloud_networking_floatingip_associate_v2",
   "resource_huaweicloud_networking_network_v2",
   "resource_huaweicloud_networking_router_interface_v2",
   "resource_huaweicloud_networking_router_route_v2",
   "resource_huaweicloud_networking_router_v2",
   "resource_huaweicloud_networking_subnet_v2",
   "resource_huaweicloud_vbs_backup_policy_v2",
   "resource_huaweicloud_vbs_backup_v2",
   "resource_huaweicloud_rts_stack_v1",
   "resource_huaweicloud_rts_software_config_v1"]

def usualPendingUpgrade : List String :=
  ["data_source_huaweicloud_cdm_flavors_v1",
   "data_source_huaweicloud_gaussdb_mysql_flavors",
   "data_source_huaweicloud_obs_bucket_object",
   "data_source_huaweicloud_rds_flavors_v3",
   "resource_huaweicloud_cdm_cluster_v1",
   "resource_huaweicloud_cloudtable_cluster_v2",
   "resource_huaweicloud_dws_cluster",
   "resource_huaweicloud_ges_graph_v1",
   "resource_huaweicloud_mls_instance",
   "resource_huaweicloud_nat_dnat_rule_v2",
   "resource_huaweicloud_obs_bucket_object",
   "resource_huaweicloud_obs_bucket_policy",
   "resource_huaweicloud_obs_bucket"]

def usualCompanions : SortedMap String String :=
  SortedMap.ofList
    [("compute_instance_v2_networking.go", "resource_huaweicloud_compute_instance.go"),
     ("compute_interface_attach_v2.go", "resource_huaweicloud_compute_interface_attach.go"),
     ("networking_port_v2.go", "resource_huaweicloud_networking_port_v2.go")]

-- All settings of a run. Relative paths of inputs are meant below the base path.
structure Settings where
  provider : String := Provider.inSources
  version : String := "latest"
  outputDir : Path := ⟨"api"⟩
  format : DocumentFormat := .yaml
  quiet : Bool := false
  host : String := "huaweicloud.com"
  basePath : Path := ⟨"."⟩
  sourceDir : Path := ⟨"huaweicloud"⟩
  configFile : Path := ⟨"huaweicloud/config/config.go"⟩
  hcConfigFile : Path := ⟨"huaweicloud/config/hcconfig.go"⟩
  catalogFile : Path := ⟨"huaweicloud/config/endpoints.go"⟩
  vendorDir : Path := ⟨"vendor"⟩
  schema : Option Path := none
  restPackages : String := Sdk.restMarker
  generatedPackages : String := Sdk.generatedMarker
  -- A text that the paths of all resource files contain.
  filter : Option String := none
  exclude : List String := []
  skipDirs : List String := usualSkippedDirs
  deprecated : List String := usualDeprecated
  codeMarkers : List String := usualCodeMarkers
  pendingUpgrade : List String := usualPendingUpgrade
  comments : Bool := true
  companions : SortedMap String String := usualCompanions

namespace Settings

def underBase (s : Settings) (p : Path) : Path := s.basePath.join p.text

def sourceRoot (s : Settings) : Path := s.underBase s.sourceDir

def configPath (s : Settings) : Path := s.underBase s.configFile

def hcConfigPath (s : Settings) : Path := s.underBase s.hcConfigFile

def catalogPath (s : Settings) : Path := s.underBase s.catalogFile

def vendorRoot (s : Settings) : Path := s.underBase s.vendorDir

def outputRoot (s : Settings) : Path := s.underBase s.outputDir

def documentPath (s : Settings) (resource : String) : Path :=
  s.outputRoot.join (Provider.rename resource s.provider ++ "." ++ s.format.text)

-- A resource waits for its upgrade if its name contains an entry.
def isPendingUpgrade (s : Settings) (resource : String) : Bool :=
  s.pendingUpgrade.any (contains resource)

end Settings

end CallAtlas
