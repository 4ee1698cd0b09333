import AzHop.Agreement
import AzHop.AutostopCrash
import AzHop.AutostopRace
import AzHop.Install
import AzHop.Plan
import AzHop.Variables
import AzHop.BicepReads
import AzHop.BuildImage
import AzHop.Lib.Words
import AzHop.Secrets
import AzHop.DnsRecords
import AzHop.KeyVault
import AzHop.Firewall
import AzHop.Users
import AzHop.LocalAccounts
import AzHop.SlurmTemplate
import AzHop.Lib.LineProtocol
import AzHop.Lib.Tally
import AzHop.SlurmMetrics
import AzHop.PbsNodes
import AzHop.PbsQueue
import AzHop.Marketplace
import AzHop.Lib.JsonEdit
import AzHop.BicepParams
import AzHop.Lib.Staging
import AzHop.StateFiles
import AzHop.Lib.WordSearch
import AzHop.TerraformState
import AzHop.CycleSetup
import AzHop.NodeRename
import AzHop.GetContainer
import AzHop.GetContainerRace
import AzHop.IdentityMapping
import AzHop.PropertyFile
import AzHop.CycleKeys
import AzHop.Lib.Double
import AzHop.NodeSharing
import AzHop.HostsFile
import AzHop.Lib.Python
import AzHop.NotebookBuilder
import AzHop.Inventory
import AzHop.Lib.FileTree
import AzHop.PunPreHook
import AzHop.RemoveUsers
import AzHop.Lib.NumberList
import AzHop.CgroupNames
import AzHop.CgroupCpus
import AzHop.CgroupHook
import AzHop.AutostopKeepalive
import AzHop.ConfigureAad
import AzHop.InstallTargets
import AzHop.StateRestore
import AzHop.Confinement
import AzHop.ImageLookup
import AzHop.SlurmNodes
import AzHop.CgroupOffline
import AzHop.CgroupJobs
import AzHop.SharedSessions
