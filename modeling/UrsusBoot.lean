import UrsusBoot.Safety.FipRepair
import UrsusBoot.Safety.Names
import UrsusBoot.Safety.Start
import UrsusBoot.Safety.StockFrame
import UrsusBoot.Safety.FipHeadroom
import UrsusBoot.Safety.FipSound
import UrsusBoot.Safety.WebStatus
import UrsusBoot.Safety.WebDriven
import UrsusBoot.Safety.UploadOrder
import UrsusBoot.Safety.StockSlot
import UrsusBoot.Safety.SettingsReset
import UrsusBoot.Safety.UpdateRoom
import UrsusBoot.Safety.Verdicts
import UrsusBoot.Safety.StockKernel
import UrsusBoot.Tools.RepackKeeps
import UrsusBoot.Web.Pump
import UrsusBoot.Safety.Segments
import UrsusBoot.Web.JsonDevices
import UrsusBoot.Safety.RangeRead
import UrsusBoot.Tools.Install
import UrsusBoot.Tools.Pin
import UrsusBoot.Engine.Bootargs
import UrsusBoot.Safety.Recovery
import UrsusBoot.Tools.Kconfig
import UrsusBoot.Safety.MigrationOrder
import UrsusBoot.Safety.Probe
