import UsbSentinel.PosixNames
import UsbSentinel.Disk
import UsbSentinel.JsonRoundtrip
import UsbSentinel.StoreIndexRuns
import UsbSentinel.Location
import UsbSentinel.ScanCoverage
import UsbSentinel.ScanReparse
import UsbSentinel.ContentPath
import UsbSentinel.JsonEmit
import UsbSentinel.JsonStrict
import UsbSentinel.LocationPolicy
import UsbSentinel.WebScanRuns
import UsbSentinel.WebPicked
import UsbSentinel.WebBodies
import UsbSentinel.HashPrefilter
import UsbSentinel.ScanProgress
import UsbSentinel.ScanDisclaimer
import UsbSentinel.LnkPadding
import UsbSentinel.Csv
import UsbSentinel.ReportCsv
import UsbSentinel.ReportVerdict
import UsbSentinel.GuiWindow
import UsbSentinel.GuiAutoScan
import UsbSentinel.GuiRearm
import UsbSentinel.ScanFindings
import UsbSentinel.JsonUtf8
import UsbSentinel.FindingText
import UsbSentinel.ScanUtf8
import UsbSentinel.ReportUtf8
import UsbSentinel.LnkLayout
import UsbSentinel.AutorunFound
import UsbSentinel.FilenameRules
import UsbSentinel.SignatureLine
import UsbSentinel.SignatureRead
import UsbSentinel.IndexDamage
import UsbSentinel.JsonTrace
import UsbSentinel.JsonTotal
import UsbSentinel.HttpHeaders
import UsbSentinel.HttpRequestLine
import UsbSentinel.HttpConnection
import UsbSentinel.HttpQuery
import UsbSentinel.SanitizeUtf8
import UsbSentinel.DeviceIdentity
import UsbSentinel.LocationSpelling
import UsbSentinel.LocationCap
import UsbSentinel.ScanDisclosure
import UsbSentinel.ScanTally
import UsbSentinel.ScanReport
import UsbSentinel.HashListed
import UsbSentinel.HttpMessage
import UsbSentinel.HttpResponse
import UsbSentinel.WebToken
import UsbSentinel.WebLaunch
import UsbSentinel.FileLock
import UsbSentinel.GuiReportView
import UsbSentinel.GuiReportFindings
import UsbSentinel.UsbAncestry
import UsbSentinel.Strtok
import UsbSentinel.MountInfo
import UsbSentinel.MountTable
import UsbSentinel.Blocks
import UsbSentinel.Sha256
import UsbSentinel.Sha256Stream
import UsbSentinel.StorageDescriptor
import UsbSentinel.InPlace
import UsbSentinel.UnescapeNames
import UsbSentinel.Dotfiles
import UsbSentinel.LinuxEnumerate
import UsbSentinel.LaunchLock
import UsbSentinel.WebDevices
import UsbSentinel.WebReport
