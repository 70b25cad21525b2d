import Rp2350Tee.AreaMap
import Rp2350Tee.ArmMpu
import Rp2350Tee.BoundarySwitch
import Rp2350Tee.BusFilter
import Rp2350Tee.BusPolicy
import Rp2350Tee.ByteMemory
import Rp2350Tee.EnvironmentCall
import Rp2350Tee.FaultEvidence
import Rp2350Tee.FlashLayout
import Rp2350Tee.IdealServices
import Rp2350Tee.IsolationFault
import Rp2350Tee.KeyFlow
import Rp2350Tee.MinimalPmp
import Rp2350Tee.MinimalTz
import Rp2350Tee.NonSecureImage
import Rp2350Tee.NonSecureLink
import Rp2350Tee.PmpPermissions
import Rp2350Tee.PreemptedServices
import Rp2350Tee.ProtectedBlock
import Rp2350Tee.ResultScript
import Rp2350Tee.Runs
import Rp2350Tee.SecretFlow
import Rp2350Tee.SectionLayout
import Rp2350Tee.SecureLink
import Rp2350Tee.SecureSign
import Rp2350Tee.ServiceCounter
import Rp2350Tee.ServiceRefinement
import Rp2350Tee.SignGuard
import Rp2350Tee.SingleFetch
import Rp2350Tee.TextDump
import Rp2350Tee.TfmIsolation
import Rp2350Tee.TzConfig
import Rp2350Tee.UserView
import Rp2350Tee.VeneerNesting
import Rp2350Tee.WorldIsolation
