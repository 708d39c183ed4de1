import SnpGuard.Lib.Bytes
import SnpGuard.Lib.Format
import SnpGuard.Lib.Text
import SnpGuard.Lib.Outcome
import SnpGuard.Lib.Effect
import SnpGuard.Lib.Loop
import SnpGuard.Lib.Lts
import SnpGuard.Lib.Hybrid
import SnpGuard.Ring
import SnpGuard.ReqResp
import SnpGuard.Report
import SnpGuard.Wire
import SnpGuard.VmDescription
import SnpGuard.ValidateReport
import SnpGuard.Server
import SnpGuard.ServerRuns
import SnpGuard.Vcek
import SnpGuard.Expected
import SnpGuard.Client
import SnpGuard.VerifyReport
import SnpGuard.Completeness
import SnpGuard.KeyWrapping
import SnpGuard.Delivery
import SnpGuard.Parties
import SnpGuard.Agreement
import SnpGuard.Lib.Shell
import SnpGuard.InitSh
import SnpGuard.Secrecy
import SnpGuard.VcekCache
import SnpGuard.Lib.Regex
import SnpGuard.Lib.Toml.Grammar
import SnpGuard.Lib.Toml.Plain
import SnpGuard.Launch
import SnpGuard.Lib.Base64
import SnpGuard.GetReport
import SnpGuard.Verdicts
import SnpGuard.IdBlock
import SnpGuard.FailsClosed
import SnpGuard.Lib.ArgLoop
import SnpGuard.LaunchOptions
import SnpGuard.Lib.Sed
import SnpGuard.CreateVmConfig
import SnpGuard.Lib.Words
import SnpGuard.AttestVerity
import SnpGuard.Lib.CommandLine
import SnpGuard.Lib.Pasting
import SnpGuard.LaunchCommand
import SnpGuard.IdBlockFiles
import SnpGuard.Rejections
import SnpGuard.Lib.Decimal
import SnpGuard.OutputImage
import SnpGuard.Lib.Substitute
import SnpGuard.Placeholders
import SnpGuard.UserData
import SnpGuard.CreateNewVm
import SnpGuard.ConvertImage
import SnpGuard.CleanUp
import SnpGuard.Lib.FileTree
import SnpGuard.Lib.Assignments
import SnpGuard.Boot
import SnpGuard.BootRuns
import SnpGuard.VerityImage
import SnpGuard.Integrity
import SnpGuard.LaunchFiles
import SnpGuard.Workflow
import SnpGuard.Measured
import SnpGuard.DiskKey
